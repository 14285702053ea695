import ObjectBridge.Session.Run
import ObjectBridge.Proofs.Accessing
import ObjectBridge.Proofs.Addressing
import ObjectBridge.Proofs.Agreement
import ObjectBridge.Proofs.Announcing
import ObjectBridge.Proofs.Arrays
import ObjectBridge.Proofs.Casting
import ObjectBridge.Proofs.Connecting
import ObjectBridge.Proofs.Declaring
import ObjectBridge.Proofs.Enumerating
import ObjectBridge.Proofs.Elements
import ObjectBridge.Proofs.Ending
import ObjectBridge.Proofs.Guarding
import ObjectBridge.Proofs.Initializers
import ObjectBridge.Proofs.Integrity
import ObjectBridge.Proofs.Invoking
import ObjectBridge.Proofs.Keeping
import ObjectBridge.Proofs.Lifecycle
import ObjectBridge.Proofs.Loading
import ObjectBridge.Proofs.Marking
import ObjectBridge.Proofs.NativeLists
import ObjectBridge.Proofs.Owning
import ObjectBridge.Proofs.Permitting
import ObjectBridge.Proofs.Properties
import ObjectBridge.Proofs.Rejecting
import ObjectBridge.Proofs.RoundTrip
import ObjectBridge.Proofs.Subtyping
import ObjectBridge.Proofs.Unswitched
import ObjectBridge.Proofs.Viewing
