import ZeroGo.Basic

/-!
The control-channel messages of package `protocol` exchanged as JSON between the agent
and the controller, with the fields the modelled handlers read or write.
-/

namespace ZeroGo

structure PeerInfo where
  address : String
  publicKey : String
  endpoints : List String
  name : String
  deriving DecidableEq

/-- The fields of `protocol.NetworkConfigMessage` the agent reads. -/
structure NetworkConfigMessage where
  networkID : String
  mtu : Nat
  psk : String
  assignedIP : String
  peers : List PeerInfo
  deriving DecidableEq

structure PeerUpdateMessage where
  action : String
  peer : PeerInfo
  deriving DecidableEq

structure JoinMessage where
  nodeAddr : String
  publicKey : String
  networks : List String
  endpoints : List String
  platform : String
  version : String
  deriving DecidableEq

structure LeaveMessage where
  networks : List String
  deriving DecidableEq

/-- A message the controller writes to an agent's connection. -/
inductive ControlMessage where
  | networkConfig (msg : NetworkConfigMessage)
  | peerUpdate (msg : PeerUpdateMessage)
  | error (code : Nat) (message : String)
  deriving DecidableEq

/-- A message the controller reads from an agent's connection. -/
inductive AgentMessage where
  | join (msg : JoinMessage)
  | status
  | leave (msg : LeaveMessage)
  deriving DecidableEq

end ZeroGo
