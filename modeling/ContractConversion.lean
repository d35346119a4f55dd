import ContractConversion.Main
import ContractConversion.Oracle.Offline
import ContractConversion.Oracle.Replay
import ContractConversion.Proofs.Audit.Damage
import ContractConversion.Proofs.Audit.Sessions
import ContractConversion.Proofs.Client.Agreement
import ContractConversion.Proofs.Client.Endings
import ContractConversion.Proofs.Client.Reduction
import ContractConversion.Proofs.Configuration.File
import ContractConversion.Proofs.Oracle.Extraction
import ContractConversion.Proofs.Oracle.Validation
import ContractConversion.Proofs.Repair.InPlace
import ContractConversion.Proofs.Repair.Rearrangement
import ContractConversion.Proofs.Repair.Resending
import ContractConversion.Proofs.Server.BodyLimit
import ContractConversion.Proofs.Server.Service
import ContractConversion.Proofs.Server.Transports
import ContractConversion.Proofs.Session.Announcements
import ContractConversion.Proofs.Session.Classification
import ContractConversion.Proofs.Session.Delivery
import ContractConversion.Proofs.Session.Departure
import ContractConversion.Proofs.Session.Failures
import ContractConversion.Proofs.Session.Intake
import ContractConversion.Proofs.Session.Lines
import ContractConversion.Proofs.Session.Pace
import ContractConversion.Proofs.Session.Reports
import ContractConversion.Proofs.Session.Rest
import ContractConversion.Proofs.Session.Scope
import ContractConversion.Proofs.Session.Trail
import ContractConversion.Proofs.Stream.Framing
import ContractConversion.Proofs.Stream.Replies
import ContractConversion.Proofs.Stream.Traffic
import ContractConversion.Proofs.Wire.Reencoding
import ContractConversion.Server.Http
import ContractConversion.Server.Peer
