import ZeroGo.Basic
import ZeroGo.GoLib
import ZeroGo.Protocol
import ZeroGo.Vl1.Packet
import ZeroGo.Vl1.Cipher
import ZeroGo.Vl1.Noise
import ZeroGo.Vl1.Peer
import ZeroGo.Vl2.Ethernet
import ZeroGo.Vl2.Switch
import ZeroGo.Vl2.Arp
import ZeroGo.Agent.Agent
import ZeroGo.Agent.ControllerClient
import ZeroGo.Agent.Runs
import ZeroGo.Agent.Records
import ZeroGo.Agent.Traffic
import ZeroGo.Controller.WsHandler
import ZeroGo.Controller.Api
import ZeroGo.Controller.Rows
import ZeroGo.Controller.Roster
import ZeroGo.Controller.Addresses
import ZeroGo.Controller.Configs
import ZeroGo.ControlPlane
import ZeroGo.Mesh
import ZeroGo.Mesh.Start
import ZeroGo.Mesh.Unicast
