import Watz.Acceptance
import Watz.Agreement
import Watz.Attester.Stream
import Watz.Bounds
import Watz.Console.Text
import Watz.Delivery
import Watz.Ems.Theorems
import Watz.Faults
import Watz.Handles.Theorems
import Watz.HexDump
import Watz.Host.Serving
import Watz.HostCrypto
import Watz.Hostile
import Watz.Instantiate.Placement
import Watz.Launcher.Balance
import Watz.LinearMemory.Lifecycle
import Watz.Network.Security
import Watz.OnnxBench
import Watz.Pinning
import Watz.Transcript
import Watz.Verifier.Coherence
import Watz.Verifier.Gate
import Watz.Verifier.Validity
import Watz.Wasi.Table.Theorems
import Watz.Wasi.Theorems
import Watz.Wire
