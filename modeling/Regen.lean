import Regen.Table.Diff
import Regen.TextEdit
import Regen.Store
import Regen.Graph.Builder
import Regen.Run.Journal
import Regen.Run.Token
import Regen.Session
import Regen.Run.Metrics
import Regen.Script.Generator
import Regen.Outline
import Regen.Options.Text
import Regen.Proofs.Marker.Reach
import Regen.Proofs.Marker.Rewalk
import Regen.Proofs.Marker.Search
import Regen.Proofs.Syntax.Place
import Regen.Proofs.Alike
import Regen.Proofs.Run.Reuse
import Regen.Proofs.Graph.Registration
import Regen.Proofs.Run.Evaluate
import Regen.Proofs.Run.Equations
import Regen.Proofs.Run.Outcome
import Regen.Proofs.Run.Idle
import Regen.Proofs.Run.Aligned
import Regen.Proofs.Run.Carried
import Regen.Proofs.Session.History
import Regen.Proofs.Session.Published
import Regen.Proofs.Session.Absorb
import Regen.Proofs.Session.Reorder
import Regen.Proofs.Run.Walked
import Regen.Proofs.Run.Faithful
import Regen.Proofs.Session.Afresh
import Regen.Proofs.Marker.Marked
import Regen.Proofs.Run.Tagged
import Regen.Proofs.Run.Meaning
import Regen.Proofs.Session.Tables
import Regen.Proofs.Run.Settled
import Regen.Proofs.Run.Sized
import Regen.Proofs.Run.Moved
import Regen.Proofs.Session.Rerun
import Regen.Proofs.Session.Denoted
import Regen.Proofs.Session.Protocol
import Regen.Proofs.Session.Paths
import Regen.Proofs.TextEdit
import Regen.Proofs.Run.Repeated
import Regen.Proofs.Session.Repeated
import Regen.Proofs.Session.Shape
import Regen.Proofs.Session.TextBlind
import Regen.Proofs.Run.Lasting
import Regen.Proofs.Session.Alone
import Regen.Proofs.Table.Partition
import Regen.Proofs.Graph.Building
import Regen.Proofs.Marker.Targets
import Regen.Proofs.Run.Recalled
import Regen.Proofs.Run.Edited
import Regen.Proofs.Session.Edited
import Regen.Proofs.Syntax.Name
import Regen.Proofs.Session.Tracked
import Regen.Proofs.Run.Sources
import Regen.Proofs.Session.Sources
import Regen.Proofs.Session.Abreast
import Regen.Proofs.Run.Hidden
import Regen.Proofs.Session.Hidden
import Regen.Proofs.Marker.Changed
