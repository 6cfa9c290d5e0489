import Dialogue.Shape.Wire

/-!
# Configuration of the engine
-/

namespace Dialogue

/-- Settings of the engine as a whole. -/
structure Config where
  /-- Whether a link of a modern flow merges when its block does not say. -/
  mergesByDefault : Bool
  /-- The greatest number of frames; zero for no limit. -/
  maxDepth : Nat
  deriving Repr, Inhabited, DecidableEq

namespace Config

/-- No merging by default, and no limit. -/
def default : Config := ⟨false, 0⟩

/-- Whether a stack of some depth may take one more frame. -/
def allowsPush (c : Config) (depth : Nat) : Bool := c.maxDepth == 0 || depth < c.maxDepth

end Config

open Members in
instance : Wire Config :=
  .record "EngineConfig"
    (defaulted "default_merge_results" (.bool false) Bool <|
      defaulted "max_link_depth" (.int 0) Nat <| nil)
    (fun (merges, depth, ()) => ⟨merges, depth⟩)
    (fun c => (c.mergesByDefault, c.maxDepth, ()))
    (fun _ => rfl) (fun _ => rfl)

end Dialogue
