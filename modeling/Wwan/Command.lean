/-!
# Commands

The codes of the commands that a bring-up sends, and of the notices that it listens to, with the
names that the firmware gives them.
-/

namespace Wwan

/-- A call of the host. -/
inductive CallId where
  | smsInit
  | cbsInit
  | netOpen
  | callCsInit
  | callPsInit
  | ssInit
  | simOpen
  | modeSet
  | netAttach
  | attachApnConfig
  | negotiatedAddress
  | negotiatedDns
  | psConnect
  | connectToDatachannel
  | psConnectSetup
  | fccLockQuery
  | fccLockChallenge
  | fccLockVerify
  deriving DecidableEq

namespace CallId

/-- Every call, by its code. -/
def all : List CallId :=
  [smsInit, cbsInit, netOpen, callCsInit, callPsInit, ssInit, simOpen, modeSet, netAttach,
   attachApnConfig, negotiatedAddress, negotiatedDns, psConnect, connectToDatachannel,
   psConnectSetup, fccLockQuery, fccLockChallenge, fccLockVerify]

/-- The code of a call. -/
def code : CallId → UInt32
  | smsInit => 0x025
  | cbsInit => 0x026
  | netOpen => 0x029
  | callCsInit => 0x02d
  | callPsInit => 0x031
  | ssInit => 0x032
  | simOpen => 0x036
  | modeSet => 0x059
  | netAttach => 0x0a2
  | attachApnConfig => 0x0d7
  | negotiatedAddress => 0x0e2
  | negotiatedDns => 0x0e4
  | psConnect => 0x0eb
  | connectToDatachannel => 0x11e
  | psConnectSetup => 0x121
  | fccLockQuery => 0x17b
  | fccLockChallenge => 0x17d
  | fccLockVerify => 0x17f

/-- The firmware's name of a call. -/
def name : CallId → String
  | smsInit => "UtaMsSmsInit"
  | cbsInit => "UtaMsCbsInit"
  | netOpen => "UtaMsNetOpen"
  | callCsInit => "UtaMsCallCsInit"
  | callPsInit => "UtaMsCallPsInitialize"
  | ssInit => "UtaMsSsInit"
  | simOpen => "UtaMsSimOpenReq"
  | modeSet => "UtaModeSetReq"
  | netAttach => "UtaMsNetAttachReq"
  | attachApnConfig => "UtaMsCallPsAttachApnConfigReq"
  | negotiatedAddress => "UtaMsCallPsGetNegIpAddrReq"
  | negotiatedDns => "UtaMsCallPsGetNegotiatedDnsReq"
  | psConnect => "UtaMsCallPsConnectReq"
  | connectToDatachannel => "UtaRPCPsConnectToDatachannelReq"
  | psConnectSetup => "UtaRPCPSConnectSetupReq"
  | fccLockQuery => "CsiFccLockQueryReq"
  | fccLockChallenge => "CsiFccLockGenChallengeReq"
  | fccLockVerify => "CsiFccLockVerChallengeReq"

/-- The call with a code. -/
def ofCode? (c : UInt32) : Option CallId :=
  all.find? fun id => id.code = c

/-- The call with a name. -/
def ofName? (s : String) : Option CallId :=
  all.find? fun id => id.name = s

theorem mem_all (id : CallId) : id ∈ all := by
  cases id <;> decide

/-- No two calls have the same code. -/
theorem ofCode?_code (id : CallId) : ofCode? id.code = some id := by
  cases id <;> decide

end CallId

/-- A notice of the modem. -/
inductive NoticeId where
  | simInit
  | modeSet
  | attachAllowed
  | netRegState
  | psConnectStatus
  deriving DecidableEq

namespace NoticeId

/-- Every notice, by its code. -/
def all : List NoticeId :=
  [simInit, modeSet, attachAllowed, netRegState, psConnectStatus]

/-- The code of a notice. -/
def code : NoticeId → UInt32
  | simInit => 0x0de
  | modeSet => 0x105
  | attachAllowed => 0x10b
  | netRegState => 0x110
  | psConnectStatus => 0x124

/-- The firmware's name of a notice. -/
def name : NoticeId → String
  | simInit => "UtaMsSimInitIndCb"
  | modeSet => "UtaModeSetRspCb"
  | attachAllowed => "UtaMsNetIsAttachAllowedIndCb"
  | netRegState => "UtaMsNetRegStateIndCb"
  | psConnectStatus => "UtaMsCallPsConnectStatusIndCb"

/-- The notice with a code. -/
def ofCode? (c : UInt32) : Option NoticeId :=
  all.find? fun id => id.code = c

/-- The notice with a name. -/
def ofName? (s : String) : Option NoticeId :=
  all.find? fun id => id.name = s

/-- No two notices have the same code. -/
theorem ofCode?_code (id : NoticeId) : ofCode? id.code = some id := by
  cases id <;> decide

end NoticeId

end Wwan
