import GuestBridge.Main
import GuestBridge.Proofs.Arguments
import GuestBridge.Proofs.BoundCalls
import GuestBridge.Proofs.Clocks
import GuestBridge.Proofs.Echo
import GuestBridge.Proofs.Extractions
import GuestBridge.Proofs.Failures
import GuestBridge.Proofs.Growth
import GuestBridge.Proofs.Inverse
import GuestBridge.Proofs.Marshalling
import GuestBridge.Proofs.Properties
import GuestBridge.Proofs.Reuse
import GuestBridge.Proofs.Streams
import GuestBridge.Proofs.Strings
import GuestBridge.Proofs.Timing
import GuestBridge.Session.Run
import GuestBridge.Proofs.Blanks
import GuestBridge.Proofs.Digits
import GuestBridge.Proofs.Literals
import GuestBridge.Proofs.Nearest
import GuestBridge.Proofs.NumberTexts
import GuestBridge.Proofs.Integers
import GuestBridge.Proofs.DateRange
import GuestBridge.Proofs.Periods
import GuestBridge.Proofs.Residues
import GuestBridge.Proofs.JsonTexts
import GuestBridge.Proofs.JsonFields
import GuestBridge.Proofs.Overlays
