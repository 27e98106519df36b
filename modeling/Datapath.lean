import Datapath.Buffer.Lemmas
import Datapath.Main
import Datapath.Session.Machine
import Datapath.Proofs.MultiLimb
import Datapath.Proofs.OldMemory
import Datapath.Proofs.StatusRecord
import Datapath.Proofs.StatusText
import Datapath.Proofs.Interleaving
import Datapath.Proofs.SignExtension
import Datapath.Proofs.SignedSum
import Datapath.Proofs.BankedRegisters
import Datapath.Proofs.SnapshotRoundTrip
import Datapath.Proofs.Safety.CommandLine
import Datapath.Proofs.Comparison
import Datapath.Proofs.Quotient
import Datapath.Proofs.Shift
import Datapath.Proofs.LowBits
import Datapath.Proofs.Widening
import Datapath.Proofs.PushRun
import Datapath.Proofs.LiteralGrammar
import Datapath.Proofs.PrintedNumbers
import Datapath.Proofs.SnapshotLayout
import Datapath.Proofs.AluCommand
import Datapath.Proofs.FaultLog
