import Wwan.Cli.Run
import Wwan.Device.Tree
import Wwan.Modem.Rehearsal

/-!
# Rehearsed hosts

A host whose devices are found in a tree of files and answer by a script.  What the commands do there
can be told in advance.
-/

namespace Wwan.Cli

/-- What stands behind a device. -/
inductive Backing where
  /-- Nothing: it takes what is written, and then reading ends. -/
  | nothing
  /-- Silence: it takes what is written, and no message ever comes. -/
  | silence
  /-- A device without room: nothing can be written, and no message ever comes. -/
  | full
  /-- A modem that answers by a script. -/
  | modem (script : List (List Cue))

/-- The peer that never answers. -/
def silentPeer : Peer := fun _ _ => []

/-- The stage for a session on a device. -/
def Backing.stage (config : ClientConfig) : Backing → Stage
  | nothing => { station := .start config, peer := .ofScript [] }
  | silence => { station := .start config, peer := silentPeer }
  | full =>
    let s := Station.start config
    { station := { s with line := { s.line with sink := s.line.sink.plan [.fault .noSpace] [] } }
      peer := silentPeer }
  | modem script => { station := .start config, peer := .ofScript script }

/-- The host with a tree of devices, where no tunnel can be opened.  It remembers the requests that are
written. -/
def Host.rehearsed (build : BuildInfo) (timestamp : String) (root : FileTree Backing) :
    Host (StateM (List Bytes)) where
  Device := Backing
  Tunnel := Empty
  build := build
  openDevice path := pure (root.openDevice path)
  openTunnel name := pure (.error (.notAttached (some name) .noSuchFile))
  converse config device session := do
    let (r, stage) := (device.stage config).run session
    modify (· ++ stage.station.line.sink.taken)
    return r
  relay _ _ tunnel := nomatch tunnel
  timestamp := pure timestamp

end Wwan.Cli
