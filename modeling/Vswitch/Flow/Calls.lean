import Vswitch.Flow.Wildcard

/-!
# Calls on partial matches

A caller holds several matches. New ones come from nothing, from keys and as projections of others; the
ones that are there are changed in place, field by field. A change is made of steps, and where one of
them is refused the earlier ones stay made.

* `WildcardMatch.InPlace`, `WildcardMatch.setter`, `WildcardMatch.unsetter`: changes in place;
* `MatchCall`, `Matches.call`, `Matches.run`: calls, and what they make of the matches that are held.
-/

namespace Vswitch

/-! ## Changes in place -/

namespace WildcardMatch

/-- A change of a match in place. A refusal leaves what was changed before it. -/
abbrev InPlace := ExceptT FieldError (StateM WildcardMatch)

/-- Gives a field a value, or none. -/
def assign (f : Field) (value : Option f.Value) : InPlace Unit :=
  modify fun m => { m with values := m.values.update f value }

/-- Forgets the source: the match is no projection any more. -/
def touch : InPlace Unit := modify fun m => { m with source := none }

/-- Sets a field, unless the raw value is out of range. -/
def setter (f : Field) (raw : f.Raw) : InPlace Unit := do
  let value ← MonadExcept.ofExcept (f.accept raw)
  assign f (some value)
  touch

/-- Leaves a field open. -/
def unsetter (f : Field) : InPlace Unit := do
  assign f none
  touch

end WildcardMatch

/-! ## Calls -/

/-- One call. A match that is there is named by its place. -/
inductive MatchCall where
  | new
  | ofKeys (keys : FlowMatch)
  | project (place : Nat) (fields : FieldSet)
  | set (place : Nat) (f : Field) (raw : f.Raw)
  | unset (place : Nat) (f : Field)

/-- The matches that a caller holds, in the order in which they were made. -/
abbrev Matches := List WildcardMatch

namespace Matches

/-- Changes the match at a place in place. Where there is none, there is nothing to change. -/
def change (held : Matches) (place : Nat) (edit : WildcardMatch.InPlace Unit) :
    Except FieldError Unit × Matches :=
  match held[place]? with
  | none => (.ok (), held)
  | some m =>
    let (answer, edited) := edit.run.run m
    (answer, held.set place edited)

/-- What a call answers, and the matches after it. -/
def call (held : Matches) : MatchCall → Except FieldError Unit × Matches
  | .new => (.ok (), held ++ [.empty])
  | .ofKeys keys => (.ok (), held ++ [.ofFlowMatch keys])
  | .project place fields => (.ok (), held ++ (held[place]?.map (·.project fields)).toList)
  | .set place f raw => held.change place (WildcardMatch.setter f raw)
  | .unset place f => held.change place (WildcardMatch.unsetter f)

/-- The matches after a sequence of calls, which goes on after a refusal. -/
def run (held : Matches) (calls : List MatchCall) : Matches :=
  calls.foldl (fun held c => (held.call c).2) held

end Matches

end Vswitch
