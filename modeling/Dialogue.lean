import Dialogue.Main
import Dialogue.Script
import Dialogue.Proofs.Absorbing
import Dialogue.Proofs.Attribution
import Dialogue.Proofs.Blaming
import Dialogue.Proofs.Chains
import Dialogue.Proofs.Closing
import Dialogue.Proofs.Entering
import Dialogue.Proofs.Handing
import Dialogue.Proofs.Isolation
import Dialogue.Proofs.Landing
import Dialogue.Proofs.Loading
import Dialogue.Proofs.Modes
import Dialogue.Proofs.Naming
import Dialogue.Proofs.Posting
import Dialogue.Proofs.Repeating
import Dialogue.Proofs.Returning
import Dialogue.Proofs.Scoping
import Dialogue.Proofs.Sharing
import Dialogue.Proofs.Storing
import Dialogue.Proofs.Subroutine
import Dialogue.Proofs.Termination
import Dialogue.Proofs.Unnamed
import Dialogue.Proofs.Wiring
