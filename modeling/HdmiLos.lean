import HdmiLos.Agent.Proofs.ChildrenProofs
import HdmiLos.Agent.Proofs.DescriptorsProofs
import HdmiLos.Agent.Proofs.ScanoutProofs
import HdmiLos.Broker.Proofs.ChordProofs
import HdmiLos.Broker.Proofs.GateProofs
import HdmiLos.Broker.Proofs.HealthyProofs
import HdmiLos.Broker.Proofs.LeaseProofs
import HdmiLos.Broker.Proofs.ModeChangeProofs
import HdmiLos.Broker.Proofs.PackagesProofs
import HdmiLos.Broker.Proofs.PreferenceProofs
import HdmiLos.Broker.Proofs.StoppingProofs
import HdmiLos.Build.Proofs.ManifestProofs
import HdmiLos.Cadence.Proofs.BandProofs
import HdmiLos.Composer.Proofs.MailboxProofs
import HdmiLos.Composer.Proofs.PlanesProofs
import HdmiLos.Composer.Proofs.RefusalProofs
import HdmiLos.Composer.Proofs.TopologyProofs
import HdmiLos.Composer.Proofs.UpdatesProofs
import HdmiLos.Composer.Proofs.WatchdogProofs
import HdmiLos.Handshake.Proofs.HandshakeProofs
import HdmiLos.Handshake.Proofs.RegistrationProofs
import HdmiLos.Input.Proofs.ResyncProofs
import HdmiLos.Input.Proofs.RoundProofs
import HdmiLos.Module.Proofs.MountUtilsProofs
import HdmiLos.Relay.Proofs.ChainProofs
import HdmiLos.Tracer.Proofs.AtomicProofs
import HdmiLos.Tracer.Proofs.LineProofs
import HdmiLos.Tracer.Proofs.PropertiesProofs
