import Mathlib.Data.Nat.Bitwise
import Mathlib.Order.Basic
import Wwan.Message.Basic

/-!
# Words of transactions

The word of a transaction is the word of the answers with the transaction's number in its last octet
(`transactionOf?_eq_some`).  A message belongs to a transaction exactly when it has the transaction's
word and a command below the threshold (`Message.classify_eq_transaction`).
-/

namespace Wwan

/-! ## The last octet of a word -/

/-- A word is made up of its last octet and the rest. -/
theorem and_or_toUInt8 (word : UInt32) : word &&& 0xffffff00 ||| word.toUInt8.toUInt32 = word := by
  apply UInt32.toNat_inj.mp
  -- the last octet and the rest are what two masks leave, which together leave everything
  have hlast : word.toNat % 256 = word.toNat &&& 0xff :=
    (Nat.and_two_pow_sub_one_eq_mod word.toNat 8).symm
  rw [UInt32.toNat_or, UInt32.toNat_and, UInt8.toNat_toUInt32, UInt32.toNat_toUInt8]
  show word.toNat &&& 0xffffff00 ||| word.toNat % 256 = word.toNat
  rw [hlast, ← Nat.and_or_distrib_left]
  show word.toNat &&& (2 ^ 32 - 1) = word.toNat
  rw [Nat.and_two_pow_sub_one_eq_mod, Nat.mod_eq_of_lt word.toNat_lt]

/-- An octet has no bits above its own. -/
theorem toUInt32_and (id : UInt8) : id.toUInt32 &&& 0xffffff00 = 0 := by
  apply UInt32.toNat_inj.mp
  rw [UInt32.toNat_and, UInt8.toNat_toUInt32]
  show id.toNat &&& (2 ^ 24 - 1) <<< 8 = 0
  apply Nat.eq_of_testBit_eq
  intro i
  rw [Nat.testBit_and, Nat.testBit_shiftLeft, Nat.zero_testBit]
  -- from bit 8 on the octet has nothing, and below it the mask has nothing
  by_cases hi : 8 ≤ i
  · have hlt : id.toNat < 2 ^ i := id.toNat_lt.trans_le (Nat.pow_le_pow_right (by omega) hi)
    rw [Nat.testBit_lt_two_pow hlt, Bool.false_and]
  · simp [hi]

theorem transactionWord_and (id : UInt8) : transactionWord id &&& 0xffffff00 = syncWord := by
  apply UInt32.toNat_inj.mp
  have hid := congrArg UInt32.toNat (toUInt32_and id)
  rw [UInt32.toNat_and] at hid
  rw [transactionWord, UInt32.toNat_and, UInt32.toNat_or, Nat.and_or_distrib_right, hid]
  decide

theorem transactionWord_toUInt8 (id : UInt8) : (transactionWord id).toUInt8 = id := by
  rw [transactionWord, UInt32.toUInt8_or, UInt8.toUInt8_toUInt32]
  show 0 ||| id = id
  rw [UInt8.zero_or]

/-! ## Transactions -/

/-- A word tells a transaction exactly when it is that transaction's word. -/
theorem transactionOf?_eq_some {word : UInt32} {id : UInt8} :
    transactionOf? word = some id ↔ word = transactionWord id ∧ id ≠ 0 := by
  rw [transactionOf?, Option.ite_none_right_eq_some, Option.some_inj]
  constructor
  · rintro ⟨⟨hmask, hid⟩, rfl⟩
    refine ⟨?_, hid⟩
    rw [transactionWord, ← hmask, and_or_toUInt8]
  · rintro ⟨rfl, hid⟩
    rw [transactionWord_toUInt8]
    exact ⟨⟨transactionWord_and id, hid⟩, rfl⟩

theorem transactionOf?_syncWord : transactionOf? syncWord = none := by
  decide

/-- What makes a message one of a transaction. -/
theorem Message.classify_eq_transaction {threshold : UInt32} {m : Message} {id : UInt8} :
    m.classify threshold = .transaction id ↔
      m.word = transactionWord id ∧ id ≠ 0 ∧ m.command < threshold := by
  rw [classify, ← and_assoc, ← transactionOf?_eq_some]
  by_cases hsync : m.word = syncWord
  · rw [if_pos hsync, hsync, transactionOf?_syncWord]
    simp
  rw [if_neg hsync]
  rcases hof : transactionOf? m.word with _ | id'
  · simp
  · by_cases hlow : m.command < threshold <;> simp [hlow]

end Wwan
