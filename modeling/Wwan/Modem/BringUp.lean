import Wwan.Modem.FccLock
import Wwan.Modem.Network
import Wwan.Modem.Request
import Wwan.Modem.Session

/-!
# Bringing the modem up

The steps from opening the modem's subsystems to routing its packets to the data channel, as sessions
on the command channel.
-/

namespace Wwan.Modem

open Procedure

/-- The subsystems that are opened before anything else, in their order. -/
def initSequence : List CallId :=
  [.smsInit, .cbsInit, .netOpen, .callCsInit, .callPsInit, .ssInit, .simOpen]

/-- Opens the subsystems. -/
def init (c : ModemConfig) : Procedure Unit :=
  initSequence.forM fun id => discard (ask c id [])

/-- Answers the challenge of the lock if the modem is locked. -/
def unlock (c : ModemConfig) : Procedure FccLock.Outcome := do
  let values ← ofExcept (replyValues .fccLockQuery (← transact c .fccLockQuery []))
  let state ← ofExcept (intAt .fccLockQuery values 1)
  let mode ← ofExcept (intAt .fccLockQuery values 2)
  if mode = 0 then return .notRequired
  if state ≠ 0 then return .alreadyUnlocked
  let challenge ← ofExcept (replyInt .fccLockChallenge (← transact c .fccLockChallenge []) 1)
  let reply ← transact c .fccLockVerify (Value.dword (FccLock.response challenge))
  let accepted ← ofExcept (replyInt .fccLockVerify reply 1)
  if accepted ≠ 1 then throw .unlockFailed
  return .unlocked

/-- Asks for a mode, and for its confirmation. -/
def requestMode (c : ModemConfig) (mode : UInt32) : Procedure Unit := do
  let reply ← transact c .modeSet (modeSetBody mode)
  let status ← ofExcept (replyInt .modeSet reply 0)
  if status ≠ 0 then throw (.modeSetFailed mode ("status " ++ Text.hex status.toNat))
  let reported ← ofExcept (replyInt .modeSet (← confirmation c) 1)
  if reported ≠ mode then
    throw (.modeSetFailed mode
      s!"modem reports mode {reported.toNat}, is the FCC lock still engaged?")

/-- Switches the radio's mode. -/
def setMode (c : ModemConfig) (mode : UInt32) : Procedure Unit :=
  listening (requestMode c mode)

/-- Configures the access point. -/
def configureApn (c : ModemConfig) : Procedure Unit := do
  let body ← ofExcept (apnConfigBody c.apn)
  discard (transact c .attachApnConfig body)

/-- The status of an attach that is not allowed yet. -/
def attachRejected : UInt32 := 0xffffffff

/-- Asks the network for an attach; gives its status. -/
def requestAttach (c : ModemConfig) : Procedure UInt32 := do
  ofExcept (replyInt .netAttach (← transact c .netAttach netAttachBody) 1)

/-- Attaches to the network: once more if it is rejected, when the network allows it. -/
def attach (c : ModemConfig) : Procedure Unit := do
  if (← requestAttach c) = attachRejected then
    awaitAttach c
    let status ← requestAttach c
    if status = attachRejected then throw (.attachFailed status)

/-- Asks for the address and for the name servers. -/
def queryNetwork (c : ModemConfig) : Procedure (Option Network) := do
  let values ← ofExcept (replyValues .negotiatedAddress (← transact c .negotiatedAddress queryBody))
  let address ← ofExcept (addressOfReply values)
  let values ← ofExcept (replyValues .negotiatedDns (← transact c .negotiatedDns queryBody))
  let (dnsV4, dnsV6) := dnsOfReply values
  return address.map fun address => { address, dnsV4, dnsV6 }

/-- Asks until an address is assigned, at most `tries` times. -/
def pollNetwork (c : ModemConfig) : Nat → Procedure (Option Network)
  | 0 => return none
  | tries + 1 => do
    match ← queryNetwork c with
    | some n => return some n
    | none =>
      if tries ≠ 0 then pause c.fetchInterval
      pollNetwork c tries

/-- The network's configuration. -/
def networkConfig (c : ModemConfig) : Procedure Network := do
  let attempts := max c.fetchAttempts 1
  match ← pollNetwork c attempts with
  | some n => return n
  | none => throw (.noAddress attempts)

/-- Routes the packets to the data channel. -/
def connectDatachannel (c : ModemConfig) : Procedure Unit := do
  let connect ← transact c .psConnect psConnectBody
  let datachannel ← ask c .connectToDatachannel (← ofExcept (datachannelBody c.datachannel))
  discard (ask c .psConnectSetup (← ofExcept (connectSetupBody connect datachannel)))

/-- What a bring-up finds out. -/
structure Report where
  unlock : FccLock.Outcome
  network : Network

/-- Brings the modem up. -/
def bringUp (c : ModemConfig) : Procedure Report := do
  init c
  let outcome ← unlock c
  setMode c online
  configureApn c
  attach c
  let network ← networkConfig c
  connectDatachannel c
  return { unlock := outcome, network }

end Wwan.Modem
