import Mathlib.Data.List.Infix
import Wwan.Modem.Network
import Wwan.Proofs.Value.Fields

/-!
# The name servers of a reply

A reply is a status with entries behind it, each an address and its type.  What is written for the first
sixteen entries is found again (`dnsOfReply_pairs`), and an entry counts for itself alone: it is looked for in
its own two places (`dnsOfReply_eq`), so a reply that ends early lacks later entries only, and one entry that
is no address with a type leaves all others as they are.  `name_servers_are_recovered` holds these together;
`listed_iff` says for any values at all which octets are taken from them.
-/

namespace Wwan

/-- Fields that can all be written are all taken. -/
theorem Body.taken_eq_self {fields : List Field} (h : ∀ f ∈ fields, ∃ bs, f.encode = .ok bs) (b : Body) :
    taken fields b = fields := by
  induction fields generalizing b with
  | nil => rfl
  | cons f rest ih =>
    obtain ⟨bs, hwritten⟩ := h f List.mem_cons_self
    rw [taken, add, hwritten]
    dsimp only
    rw [ih fun g hg => h g (List.mem_cons_of_mem f hg)]

namespace Modem

open Value (decodeAll)

/-! ## A reply as it is written -/

/-- An entry of a reply: an address, the number of octets of the field that it is written into, and its
type. -/
structure ServerEntry where
  address : Bytes
  capacity : Nat
  kind : UInt32
  length_le : address.length ≤ capacity
  capacity_lt : capacity < Bytes.bound 4

namespace ServerEntry

/-- The fields that an entry is written as. -/
def fields (e : ServerEntry) : List Field :=
  [.string e.capacity 1 e.address, .dword e.kind]

/-- The pair of values that an entry is read as. -/
def pair (e : ServerEntry) : Value × Value :=
  (.string .one e.address, .int e.kind)

/-- An entry always fits the field that it is written into. -/
theorem encodes (e : ServerEntry) : ∀ f ∈ e.fields, ∃ bs, f.encode = .ok bs := by
  have haligned : e.address.length % Width.one.octets = 0 := Nat.mod_one _
  have hle : e.address.length / Width.one.octets ≤ e.capacity := by simpa [Width.octets] using e.length_le
  have hlt : e.capacity * Width.one.octets < Bytes.bound 4 := by simpa [Width.octets] using e.capacity_lt
  have hwritten := Value.encodeString_of_le haligned hle hlt
  rw [fields, List.forall_mem_cons, List.forall_mem_singleton]
  exact ⟨⟨_, hwritten⟩, ⟨_, rfl⟩⟩

end ServerEntry

/-- The body of a reply with these entries. -/
def dnsReplyBody (status : UInt32) (entries : List ServerEntry) : Bytes :=
  (Body.after (.dword status :: entries.flatMap ServerEntry.fields) Body.empty).finish.1

/-- The values of pairs, one after the other. -/
def unpaired (pairs : List (Value × Value)) : List Value :=
  pairs.flatMap fun p => [p.1, p.2]

theorem dnsEntries_unpaired (pairs : List (Value × Value)) : dnsEntries (unpaired pairs) = pairs := by
  induction pairs with
  | nil => rfl
  | cons p rest ih => exact congrArg (p :: ·) ih

/-- A reply is read as its status and the pairs of its entries. -/
theorem decodeAll_dnsReplyBody (status : UInt32) (entries : List ServerEntry) :
    decodeAll (dnsReplyBody status entries)
      = .ok (.int status :: unpaired (entries.map ServerEntry.pair)) := by
  have hwritten : ∀ f ∈ Field.dword status :: entries.flatMap ServerEntry.fields, ∃ bs, f.encode = .ok bs := by
    rw [List.forall_mem_cons, List.forall_mem_flatMap]
    exact ⟨⟨_, rfl⟩, fun e _ => e.encodes⟩
  have hvalue : ∀ f ∈ Field.dword status :: entries.flatMap ServerEntry.fields, f.IsValue := by
    rw [List.forall_mem_cons, List.forall_mem_flatMap]
    refine ⟨trivial, fun e _ => ?_⟩
    rw [ServerEntry.fields, List.forall_mem_cons, List.forall_mem_singleton]
    exact ⟨trivial, trivial⟩
  obtain ⟨values, parts, hvalues, -, hcontent, hread⟩ := Body.content_after _ hvalue Body.empty
  have hpairs : (entries.flatMap ServerEntry.fields).map Field.value?
      = (unpaired (entries.map ServerEntry.pair)).map some := by
    rw [unpaired, List.flatMap_map, List.map_flatMap, List.map_flatMap]
    rfl
  rw [Body.taken_eq_self hwritten, List.map_cons, hpairs] at hvalues
  have hsame := (List.map_inj_right fun _ _ h => Option.some.inj h).mp
    (hvalues.trans (List.map_cons (f := some) (a := Value.int status)).symm)
  rw [← hsame, dnsReplyBody, Body.finish, hcontent]
  exact hread 0

/-! ## What an entry tells -/

/-- The address in the first four octets, where there are as many. -/
theorem octets_ofBytes?_v4 (bs : Bytes) :
    (Ipv4.ofBytes? bs).map Ipv4.octets = if 4 ≤ bs.length then some (bs.take 4) else none := by
  have hlength : (bs.take 4).length = 4 ↔ 4 ≤ bs.length := by
    rw [List.length_take]
    omega
  rw [Ipv4.ofBytes?]
  by_cases h : 4 ≤ bs.length
  · rw [dif_pos (hlength.mpr h), if_pos h]
    rfl
  · rw [dif_neg (mt hlength.mp h), if_neg h]
    rfl

/-- The address in the first sixteen octets, where there are as many. -/
theorem octets_ofBytes?_v6 (bs : Bytes) :
    (Ipv6.ofBytes? bs).map Ipv6.octets = if 16 ≤ bs.length then some (bs.take 16) else none := by
  have hlength : (bs.take 16).length = 16 ↔ 16 ≤ bs.length := by
    rw [List.length_take]
    omega
  rw [Ipv6.ofBytes?]
  by_cases h : 16 ≤ bs.length
  · rw [dif_pos (hlength.mpr h), if_pos h]
    rfl
  · rw [dif_neg (mt hlength.mp h), if_neg h]
    rfl

/-- The address that an entry tells if it is of this type: the first octets of a string that has as many, with
the type behind it. -/
def toldBy (kind : UInt32) (size : Nat) : Value × Value → Option Bytes
  | (.string _ address, .int k) => if k = kind ∧ size ≤ address.length then some (address.take size) else none
  | _ => none

theorem octets_dnsV4? (p : Value × Value) : (dnsV4? p).map Ipv4.octets = toldBy 1 4 p := by
  rcases p with ⟨_ | ⟨width, address⟩, k | _⟩
  · rfl
  · rfl
  · by_cases hkind : k = 1
    · have htold : dnsV4? (.string width address, .int k) = Ipv4.ofBytes? address := by
        rw [hkind]
        rfl
      rw [htold, octets_ofBytes?_v4]
      simp [toldBy, hkind]
    · have hnone : dnsV4? (.string width address, .int k) = none := by
        unfold dnsV4?
        split <;> simp_all
      simp [hnone, toldBy, hkind]
  · rfl

theorem octets_dnsV6? (p : Value × Value) : (dnsV6? p).map Ipv6.octets = toldBy 2 16 p := by
  rcases p with ⟨_ | ⟨width, address⟩, k | _⟩
  · rfl
  · rfl
  · by_cases hkind : k = 2
    · have htold : dnsV6? (.string width address, .int k) = Ipv6.ofBytes? address := by
        rw [hkind]
        rfl
      rw [htold, octets_ofBytes?_v6]
      simp [toldBy, hkind]
    · have hnone : dnsV6? (.string width address, .int k) = none := by
        unfold dnsV6?
        split <;> simp_all
      simp [hnone, toldBy, hkind]
  · rfl

/-- Whether an entry is of a type and has enough octets for an address of this type. -/
def ServerEntry.Tells (kind : UInt32) (size : Nat) (e : ServerEntry) : Prop :=
  e.kind = kind ∧ size ≤ e.address.length

instance (kind : UInt32) (size : Nat) : DecidablePred (ServerEntry.Tells kind size) :=
  fun _ => inferInstanceAs (Decidable (_ ∧ _))

theorem toldBy_pair (kind : UInt32) (size : Nat) (e : ServerEntry) :
    toldBy kind size e.pair = if e.Tells kind size then some (e.address.take size) else none :=
  rfl

/-- The addresses in the entries of a type: the first octets of those that have enough. -/
def addressesOf (kind : UInt32) (size : Nat) (entries : List ServerEntry) : List Bytes :=
  (entries.filter (ServerEntry.Tells kind size)).map fun e => e.address.take size

/-- The addresses of a type are found entry by entry. -/
theorem filterMap_toldBy_pair (kind : UInt32) (size : Nat) (entries : List ServerEntry) :
    (entries.map ServerEntry.pair).filterMap (toldBy kind size) = addressesOf kind size entries := by
  induction entries with
  | nil => rfl
  | cons e rest ih =>
    rw [List.map_cons, List.filterMap_cons, toldBy_pair, addressesOf, List.filter_cons]
    by_cases htells : e.Tells kind size
    · rw [if_pos htells, if_pos (decide_eq_true htells), List.map_cons, ih]
      rfl
    · rw [if_neg htells, if_neg (by rwa [decide_eq_true_eq]), ih]
      rfl

/-- The name servers of the first sixteen entries are found, in their order, and nothing else. -/
theorem dnsOfReply_pairs (status : Value) (entries : List ServerEntry) :
    let servers := dnsOfReply (status :: unpaired (entries.map ServerEntry.pair))
    servers.1.map Ipv4.octets = addressesOf 1 4 (entries.take 16) ∧
      servers.2.map Ipv6.octets = addressesOf 2 16 (entries.take 16) := by
  dsimp only [dnsOfReply]
  rw [List.tail_cons, dnsEntries_unpaired, dnsSlots, ← List.map_take, List.map_filterMap, List.map_filterMap,
    funext octets_dnsV4?, funext octets_dnsV6?]
  exact ⟨filterMap_toldBy_pair 1 4 _, filterMap_toldBy_pair 2 16 _⟩

/-! ## A reply that ends early -/

/-- Without its last values a reply lacks its last entries. -/
theorem dnsEntries_take (values : List Value) (n : Nat) :
    dnsEntries (values.take n) <+: dnsEntries values := by
  fun_induction dnsEntries values generalizing n with
  | case1 a k rest ih =>
    match n with
    | 0 | 1 => exact List.nil_prefix
    | n + 2 => exact (List.prefix_cons_inj _).mpr (ih n)
  | case2 values hshort =>
    have hnone : dnsEntries (values.take n) = [] := by
      rw [dnsEntries]
      intro a k rest htake
      obtain ⟨more, hmore⟩ := htake ▸ List.take_prefix n values
      exact hshort a k (rest ++ more) hmore.symm
    rw [hnone]

theorem dnsOfReply_take (values : List Value) (n : Nat) :
    (dnsOfReply (values.take n)).1 <+: (dnsOfReply values).1 ∧
      (dnsOfReply (values.take n)).2 <+: (dnsOfReply values).2 := by
  have hentries : dnsEntries (values.take n).tail <+: dnsEntries values.tail := by
    rw [← List.drop_one, List.drop_take, List.drop_one]
    exact dnsEntries_take values.tail (n - 1)
  have hslots := List.IsPrefix.take hentries dnsSlots
  exact ⟨hslots.filterMap dnsV4?, hslots.filterMap dnsV6?⟩

/-! ## Entries count on their own -/

/-- The entry in slot `i` of a reply, if both of its values are there. -/
def entryAt (values : List Value) (i : Nat) : Option (Value × Value) :=
  match values[2 * i + 1]?, values[2 * i + 2]? with
  | some a, some k => some (a, k)
  | _, _ => none

/-- The name servers that some slots of a reply tell. -/
def serversAt (slots : List Nat) (values : List Value) : List Ipv4 × List Ipv6 :=
  (slots.filterMap fun i => (entryAt values i).bind dnsV4?,
    slots.filterMap fun i => (entryAt values i).bind dnsV6?)

theorem getElem?_dnsEntries (values : List Value) (i : Nat) :
    (dnsEntries values)[i]? = match values[2 * i]?, values[2 * i + 1]? with
      | some a, some k => some (a, k)
      | _, _ => none := by
  fun_induction dnsEntries values generalizing i with
  | case1 a k rest ih =>
    cases i with
    | zero => rfl
    | succ i => exact ih i
  | case2 values hshort =>
    match values with
    | [] => rfl
    | [a] => simp
    | a :: k :: rest => exact (hshort a k rest rfl).elim

theorem getElem?_dnsEntries_tail (values : List Value) (i : Nat) :
    (dnsEntries values.tail)[i]? = entryAt values i := by
  rw [getElem?_dnsEntries, List.getElem?_tail, List.getElem?_tail]
  rfl

theorem filterMap_take {α β : Type} (f : α → Option β) (l : List α) (n : Nat) :
    (l.take n).filterMap f = (List.range n).filterMap fun i => l[i]?.bind f := by
  induction n with
  | zero => rfl
  | succ n ih =>
    rw [List.take_add_one, List.range_succ, List.filterMap_append, List.filterMap_append, ih]
    rcases h : l[n]? with _ | a
    · simp [h]
    · simp [h, List.filterMap_cons]

/-- A reply tells what its first sixteen slots tell, one by one. -/
theorem dnsOfReply_eq (values : List Value) : dnsOfReply values = serversAt (List.range 16) values := by
  simp only [dnsOfReply, serversAt, dnsSlots, filterMap_take, getElem?_dnsEntries_tail]

/-- The addresses of a type that some slots of a reply tell. -/
def addressesAt (kind : UInt32) (size : Nat) (slots : List Nat) (values : List Value) : List Bytes :=
  slots.filterMap fun i => (entryAt values i).bind (toldBy kind size)

/-- The name servers that a reply lists in its first sixteen slots: the first four octets of the entries of
type 1 and the first sixteen of those of type 2, where they have as many. -/
structure Listed (values : List Value) (servers : List Ipv4 × List Ipv6) : Prop where
  v4 : servers.1.map Ipv4.octets = addressesAt 1 4 (List.range 16) values
  v6 : servers.2.map Ipv6.octets = addressesAt 2 16 (List.range 16) values

/-- A reply tells what it lists. -/
theorem listed_dnsOfReply (values : List Value) : Listed values (dnsOfReply values) := by
  rw [dnsOfReply_eq]
  constructor
  · rw [serversAt, List.map_filterMap, addressesAt]
    simp only [Option.map_bind, Function.comp_def, octets_dnsV4?]
  · rw [serversAt, List.map_filterMap, addressesAt]
    simp only [Option.map_bind, Function.comp_def, octets_dnsV6?]

/-- What a reply lists is what it tells, and nothing else. -/
theorem listed_iff {values : List Value} {servers : List Ipv4 × List Ipv6} :
    Listed values servers ↔ servers = dnsOfReply values := by
  constructor
  · intro h
    have hv4 : Function.Injective Ipv4.octets := fun a b => by cases a; cases b; simp
    have hv6 : Function.Injective Ipv6.octets := fun a b => by cases a; cases b; simp
    have htold := listed_dnsOfReply values
    exact Prod.ext (hv4.list_map (h.v4.trans htold.v4.symm)) (hv6.list_map (h.v6.trans htold.v6.symm))
  · rintro rfl
    exact listed_dnsOfReply values

/-- Whether an entry is no address with a type. -/
def Mistyped (p : Value × Value) : Prop :=
  p.1.bytes? = none ∨ p.2.int? = none

/-- An entry that is no address with a type tells nothing. -/
theorem dns_of_mistyped {p : Value × Value} (h : Mistyped p) : dnsV4? p = none ∧ dnsV6? p = none := by
  unfold Mistyped at h
  constructor
  · unfold dnsV4?
    split
    · exact absurd h (by simp [Value.bytes?, Value.int?])
    · rfl
  · unfold dnsV6?
    split
    · exact absurd h (by simp [Value.bytes?, Value.int?])
    · rfl

/-- The values of a reply with other ones in slot `i`. -/
def withEntry (values : List Value) (i : Nat) (p : Value × Value) : List Value :=
  (values.set (2 * i + 1) p.1).set (2 * i + 2) p.2

theorem entryAt_withEntry_of_ne (values : List Value) {i j : Nat} (h : j ≠ i) (p : Value × Value) :
    entryAt (withEntry values i p) j = entryAt values j := by
  have hgetElem : ∀ k, k ≠ 2 * i + 1 → k ≠ 2 * i + 2 → (withEntry values i p)[k]? = values[k]? := by
    intro k hfirst hsecond
    rw [withEntry, List.getElem?_set_ne hsecond.symm, List.getElem?_set_ne hfirst.symm]
  rw [entryAt, entryAt, hgetElem (2 * j + 1) (by omega) (by omega),
    hgetElem (2 * j + 2) (by omega) (by omega)]

/-- What stands in slot `i` afterwards, if anything does. -/
theorem entryAt_withEntry_self (values : List Value) (i : Nat) (p : Value × Value) :
    entryAt (withEntry values i p) i = none ∨ entryAt (withEntry values i p) i = some p := by
  rw [entryAt, withEntry]
  by_cases hlength : 2 * i + 2 < values.length
  · have hfirst : ((values.set (2 * i + 1) p.1).set (2 * i + 2) p.2)[2 * i + 1]? = some p.1 := by
      rw [List.getElem?_set_ne (by omega), List.getElem?_set_self (by omega)]
    have hsecond : ((values.set (2 * i + 1) p.1).set (2 * i + 2) p.2)[2 * i + 2]? = some p.2 := by
      rw [List.getElem?_set_self (by rwa [List.length_set])]
    rw [hfirst, hsecond]
    exact .inr rfl
  · have hsecond : ((values.set (2 * i + 1) p.1).set (2 * i + 2) p.2)[2 * i + 2]? = none := by
      rw [List.getElem?_eq_none]
      simp only [List.length_set]
      omega
    rw [hsecond]
    exact .inl (by split <;> simp_all)

/-- A slot that tells nothing is as good as left out. -/
theorem filterMap_of_silent {β : Type} {f g : Nat → Option β} {i : Nat} (hsilent : f i = none)
    (hothers : ∀ j, j ≠ i → f j = g j) (slots : List Nat) :
    slots.filterMap f = (slots.filter fun j => j ≠ i).filterMap g := by
  rw [List.filterMap_filter]
  refine List.filterMap_congr fun j _ => ?_
  by_cases h : j = i
  · simp [h, hsilent]
  · simp [h, hothers j h]

/-- With an entry that is no address with a type in slot `i`, a reply tells what the other slots tell. -/
theorem dnsOfReply_withEntry (values : List Value) (i : Nat) {p : Value × Value} (h : Mistyped p) :
    dnsOfReply (withEntry values i p)
      = serversAt ((List.range 16).filter fun j => j ≠ i) values := by
  obtain ⟨hv4, hv6⟩ := dns_of_mistyped h
  have hothers : ∀ j, j ≠ i → entryAt (withEntry values i p) j = entryAt values j :=
    fun j hne => entryAt_withEntry_of_ne values hne p
  have hself := entryAt_withEntry_self values i p
  rw [dnsOfReply_eq, serversAt, serversAt]
  congr 1
  · refine filterMap_of_silent ?_ (fun j hne => by rw [hothers j hne]) _
    rcases hself with hself | hself <;> rw [hself]
    · rfl
    · exact hv4
  · refine filterMap_of_silent ?_ (fun j hne => by rw [hothers j hne]) _
    rcases hself with hself | hself <;> rw [hself]
    · rfl
    · exact hv6

/-! ## The name servers of a reply -/

/-- What is written for the first sixteen entries of a reply is found again: the first four octets of those
of type 1 and the first sixteen of those of type 2, in their order, where they have as many, and nothing else.
Without its last values a reply tells a prefix of each of the two lists.  What a reply tells is what its slots
tell, one by one, and one that holds no address with a type tells nothing and leaves the others as they
are. -/
theorem name_servers_are_recovered :
    (∀ (status : UInt32) (entries : List ServerEntry), ∃ values,
      decodeAll (dnsReplyBody status entries) = .ok values ∧
      (dnsOfReply values).1.map Ipv4.octets = addressesOf 1 4 (entries.take 16) ∧
      (dnsOfReply values).2.map Ipv6.octets = addressesOf 2 16 (entries.take 16)) ∧
    (∀ (values : List Value) (n : Nat),
      (dnsOfReply (values.take n)).1 <+: (dnsOfReply values).1 ∧
      (dnsOfReply (values.take n)).2 <+: (dnsOfReply values).2) ∧
    ∀ values : List Value, dnsOfReply values = serversAt (List.range 16) values ∧
      ∀ (i : Nat) (p : Value × Value), Mistyped p →
        dnsOfReply (withEntry values i p) = serversAt ((List.range 16).filter fun j => j ≠ i) values := by
  refine ⟨fun status entries => ?_, dnsOfReply_take, fun values => ?_⟩
  · exact ⟨_, decodeAll_dnsReplyBody status entries, dnsOfReply_pairs (.int status) entries⟩
  · exact ⟨dnsOfReply_eq values, fun i p h => dnsOfReply_withEntry values i h⟩

end Modem

end Wwan
