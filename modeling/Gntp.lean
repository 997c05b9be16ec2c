import Gntp.Cipher.Session
import Gntp.Main
import Gntp.Proofs.ArrivalHistory
import Gntp.Proofs.Atomicity
import Gntp.Proofs.Authorization
import Gntp.Proofs.CipherStreams
import Gntp.Proofs.CommandLine
import Gntp.Proofs.ConnectionHistory
import Gntp.Proofs.Discretion
import Gntp.Proofs.DiskTraffic
import Gntp.Proofs.Eviction
import Gntp.Proofs.Grammar
import Gntp.Proofs.HeaderHistory
import Gntp.Proofs.HeaderNumbers
import Gntp.Proofs.Interleaving
import Gntp.Proofs.InternalErrors
import Gntp.Proofs.KeySearch
import Gntp.Proofs.LineEnds
import Gntp.Proofs.LineLimit
import Gntp.Proofs.Locality
import Gntp.Proofs.Notifying
import Gntp.Proofs.Payloads
import Gntp.Proofs.RegistrationOutcome
import Gntp.Proofs.Repetition
import Gntp.Proofs.References
import Gntp.Proofs.SealedLines
import Gntp.Proofs.Secrecy
import Gntp.Proofs.StoreIndependence
import Gntp.Proofs.Transitions
import Gntp.Proofs.Transparency
import Gntp.Proofs.Truncation
import Gntp.Proofs.Withdrawal
