import Playthrough.Engine.Table
import Playthrough.Json.Printer
import Playthrough.Schema.Engine
import Playthrough.Service.Basic
import Playthrough.Proofs.Descent
import Playthrough.Proofs.Endings
import Playthrough.Proofs.Halting
import Playthrough.Proofs.Renaming.Basic
import Playthrough.Proofs.Rooting
import Playthrough.Proofs.Renaming.Engine
import Playthrough.Proofs.Renaming.Story
import Playthrough.Proofs.Arrival
import Playthrough.Proofs.Mirror
import Playthrough.Proofs.Renaming.Graph
import Playthrough.Proofs.Marks
import Playthrough.Proofs.Closing
import Playthrough.Proofs.Leaves
import Playthrough.Proofs.Placement
import Playthrough.Proofs.Serving
import Playthrough.Proofs.Refusal
import Playthrough.Proofs.Posting
import Playthrough.Proofs.Pruning
import Playthrough.Proofs.Reordering
import Playthrough.Proofs.Resolution
import Playthrough.Proofs.Effects
import Playthrough.Proofs.Offers
import Playthrough.Proofs.Relabelling.Story
import Playthrough.Proofs.Rearranging
import Playthrough.Proofs.Drawings
import Playthrough.Proofs.Files.Loading
import Playthrough.Proofs.Scanning
import Playthrough.Proofs.Bookkeeping
import Playthrough.Proofs.Dumping
