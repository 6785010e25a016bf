import GoFabric.Proof.Channel.Arrival
import GoFabric.Proof.Endpoint.Acl
import GoFabric.Proof.Endpoint.Dispatcher
import GoFabric.Proof.Im.Read
import GoFabric.Proof.Im.Write
import GoFabric.Proof.Tcp.Frame
import GoFabric.Proof.Groups.Counter
import GoFabric.Proof.Im.EventLog
import GoFabric.Proof.Groups.Decode
import GoFabric.Proof.Bridge.Limits
import GoFabric.Proof.Tlv.Grammar
import GoFabric.Proof.Im.RoundTrip
import GoFabric.Proof.Setup.Manual
import GoFabric.Proof.Setup.Qr
import GoFabric.Proof.Im.Persistence
import GoFabric.Proof.Commissioning.FailSafe
import GoFabric.Proof.Commissioning.Limit
import GoFabric.Proof.Mattercert.Tbs
import GoFabric.Proof.Core.Audit
import GoFabric.Proof.Endpoint.Memstore
import GoFabric.Proof.Memstore
import GoFabric.Proof.Btp.Hostile
import GoFabric.Proof.Sigma.Agreement
import GoFabric.Proof.Mrp.Unsecured
import GoFabric.Proof.Im.Retention
import GoFabric.Proof.Mrp.Ack
import GoFabric.Proof.Im.WriteHolds
import GoFabric.Proof.Im.Engine
import GoFabric.Proof.Btp.Quiet
import GoFabric.Proof.Transition
import GoFabric.Proof.JointFabric.Lists
