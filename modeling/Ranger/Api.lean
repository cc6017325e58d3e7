/-
The state enums of `pkg/api` that the persister and the orchestrator share, with the names
`stringer` gives them. Their declarations are not under src/; the constants are the ones the
code names (`parseRangeStateString`, `parsePlacementStateString`, `tickRange`, `doMove`,
`tickPlacement`), with `unknown` for the zero value.
-/
import Ranger.Key

namespace Ranger.Api

/-- `api.RangeState`. -/
inductive RangeState
  | unknown | active | subsuming | obsolete
deriving DecidableEq, Repr

/-- `api.PlacementState`. -/
inductive PlacementState
  | unknown | pending | inactive | active | missing | dropped
deriving DecidableEq, Repr

/-- `api.RemoteState`: a node's state of one of its ranges, as the orchestrator reads it. -/
inductive RemoteState
  | unknown | preparing | inactive | activating | active | deactivating | dropping | notFound
deriving DecidableEq, Repr

/-- `RangeState.String()`. -/
def RangeState.toString : RangeState → String
  | .unknown => "RsUnknown"
  | .active => "RsActive"
  | .subsuming => "RsSubsuming"
  | .obsolete => "RsObsolete"

/-- `PlacementState.String()`. -/
def PlacementState.toString : PlacementState → String
  | .unknown => "PsUnknown"
  | .pending => "PsPending"
  | .inactive => "PsInactive"
  | .active => "PsActive"
  | .missing => "PsMissing"
  | .dropped => "PsDropped"

end Ranger.Api
