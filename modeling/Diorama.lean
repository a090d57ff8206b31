import Diorama.Console.Panels
import Diorama.Library
import Diorama.Main
import Diorama.Options
import Diorama.Proofs.Placing
import Diorama.Proofs.Slicing
import Diorama.Scene.Painting
import Diorama.Session.Clock
import Diorama.Session.Text
import Diorama.Settings
import Diorama.Toml.Document
import Diorama.Proofs.Ticking
import Diorama.Proofs.Containers
import Diorama.Proofs.Skipping
import Diorama.Proofs.Painting
import Diorama.Proofs.Layout
import Diorama.Proofs.Bookkeeping
import Diorama.Proofs.Nesting
import Diorama.Proofs.Stopping
import Diorama.Proofs.Surfaces
import Diorama.Proofs.Reentry
import Diorama.Proofs.Grammar
import Diorama.Proofs.Scripts
import Diorama.Proofs.Orders
import Diorama.Proofs.Spelling
import Diorama.Proofs.Leftovers
import Diorama.Proofs.Parting
import Diorama.Proofs.Checking
import Diorama.Proofs.Locality
import Diorama.Proofs.Naming
import Diorama.Proofs.Characters
import Diorama.Proofs.Coverage
import Diorama.Proofs.Boundaries
import Diorama.Proofs.Regrouping
import Diorama.Proofs.Descent
import Diorama.Proofs.Hiding
import Diorama.Proofs.Rendering
import Diorama.Proofs.Colours
import Diorama.Proofs.Chains
import Diorama.Proofs.History
import Diorama.Proofs.Lexicon
