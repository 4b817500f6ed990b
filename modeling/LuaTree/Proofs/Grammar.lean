import LuaTree.Proofs.Builder
import Mathlib.Data.List.Induction

/-!
# The grammar of events

Whether an event fits is told by the events before it alone: by the number of nodes they leave open
and the number of bytes their tokens cover. The builder reports the first event that does not fit,
whatever follows it, and otherwise what the end of the text leaves open.
-/

namespace LuaTree

namespace Event

/-- By how much the event changes the number of open nodes. -/
def weight : Event → Int
  | .start _ => 1
  | .token _ _ => 0
  | .finish => -1

/-- The number of bytes that the event covers. -/
def width : Event → Nat
  | .token _ length => length
  | _ => 0

def isStart : Event → Bool
  | .start _ => true
  | _ => false

def addsNode : Event → Bool
  | .finish => false
  | _ => true

end Event

/-! ### What fits where -/

/-- The number of nodes started less the number of nodes finished. -/
def depthAfter (events : List Event) : Int :=
  events.foldl (fun depth event => depth + event.weight) 0

/-- The number of bytes that tokens cover. -/
def offsetAfter (events : List Event) : Nat :=
  events.foldl (fun offset event => offset + event.width) 0

def nodesAfter (events : List Event) : Nat := events.countP Event.addsNode

/-- Why an event does not fit after others. Of several causes the first one counts. -/
def misfit? (source : Text) (before : List Event) : Event → Option BuildError
  | .start kind =>
    if kind.isToken then some (.tokenAsNode kind)
    else if depthAfter before = 0 ∧ before.any Event.isStart then some (.multipleRoots kind)
    else none
  | .token kind length =>
    let offset := offsetAfter before
    if ¬ kind.isToken then some (.nodeAsToken kind)
    else if depthAfter before = 0 then some (.tokenOutsideRoot kind)
    else if maxOffset < offset + length then
      some (.span (.endTooLarge (min (offset + length) maxLength)))
    else if source.byteLength < offset + length then
      some (.tokenPastEnd kind offset source.byteLength)
    else if ¬ source.isBoundary (offset + length) then some (.notCharBoundary kind offset)
    else none
  | .finish => if depthAfter before = 0 then some .unbalancedFinish else none

/-- What is missing when no event follows. -/
def unfinished? (source : Text) (events : List Event) : Option BuildError :=
  if ¬ events.any Event.isStart then some .empty
  else if 0 < depthAfter events then some (.unclosed (depthAfter events).toNat)
  else if offsetAfter events < source.byteLength then
    some (.trailingText (offsetAfter events) (source.byteLength - offsetAfter events))
  else none

/-- Every event fits after those before it. -/
def Fits (source : Text) (events : List Event) : Prop :=
  ∀ before event after, events = before ++ event :: after → misfit? source before event = none

section
variable {source : Text} {events : List Event} {event : Event}

@[simp] theorem depthAfter_concat :
    depthAfter (events ++ [event]) = depthAfter events + event.weight := by
  simp [depthAfter]

@[simp] theorem offsetAfter_concat :
    offsetAfter (events ++ [event]) = offsetAfter events + event.width := by
  simp [offsetAfter]

@[simp] theorem nodesAfter_concat :
    nodesAfter (events ++ [event]) = nodesAfter events + if event.addsNode then 1 else 0 := by
  simp [nodesAfter, List.countP_cons]

theorem fits_nil (source : Text) : Fits source [] := by
  intro before event after split
  simp at split

theorem fits_concat :
    Fits source (events ++ [event]) ↔ Fits source events ∧ misfit? source events event = none := by
  constructor
  · intro fits
    refine ⟨fun before other after split => ?_, fits events event [] rfl⟩
    exact fits before other (after ++ [event]) (by simp [split])
  · rintro ⟨fits, fit⟩ before other after split
    -- The event is the last one, or it stands among the others.
    rcases List.eq_nil_or_concat after with rfl | ⟨after, last, rfl⟩
    · obtain ⟨rfl, same⟩ := List.append_inj' split rfl
      rwa [← List.singleton_inj.mp same]
    · have cut : events ++ [event] = (before ++ other :: after) ++ [last] := by simp [split]
      exact fits before other after (List.append_inj' cut rfl).1

/-- Unless all events fit, one of them is the first that does not. -/
theorem fits_or_exists_misfit (source : Text) (events : List Event) :
    Fits source events ∨ ∃ before event after cause, events = before ++ event :: after ∧
      Fits source before ∧ misfit? source before event = some cause := by
  induction events using List.reverseRecOn with
  | nil => exact .inl (fits_nil source)
  | append_singleton events event ih =>
    rcases ih with fits | ⟨before, first, after, cause, rfl, found⟩
    · cases misfit : misfit? source events event with
      | none => exact .inl (fits_concat.mpr ⟨fits, misfit⟩)
      | some cause => exact .inr ⟨events, event, [], cause, rfl, fits, misfit⟩
    · exact .inr ⟨before, first, after ++ [event], cause, by simp, found⟩

end

namespace Builder

/-! ### Where events lead the builder -/

/-- The builder has taken the events, and all of them fitted. -/
structure After (source : Text) (events : List Event) (b : Builder) : Prop where
  source : b.source = source
  failure : b.failure? = none
  depth : (b.opened.length : Int) = depthAfter events
  offset : b.offset = offsetAfter events
  count : b.nodes.size = nodesAfter events
  started : 0 < b.nodes.size ↔ events.any Event.isStart
  inside : b.opened ≠ [] → 0 < b.nodes.size

namespace After

variable {source : Text} {events : List Event} {event : Event} {b : Builder}

theorem new (source : Text) : (Builder.new source).After source [] where
  source := rfl
  failure := rfl
  depth := rfl
  offset := rfl
  count := rfl
  started := by simp [Builder.new]
  inside := by simp [Builder.new]

theorem opened_eq_nil_iff (after : b.After source events) :
    b.opened = [] ↔ depthAfter events = 0 := by
  rw [← after.depth, ← List.length_eq_zero_iff]
  omega

theorem start_of_misfit (after : b.After source events) {kind : Kind} {cause : BuildError}
    (misfit : misfit? source events (.start kind) = some cause) : b.start kind = .error cause := by
  simp only [misfit?] at misfit
  unfold Builder.start
  split at misfit
  next isToken =>
    cases misfit
    rw [if_pos isToken]
  next composite =>
    split at misfit
    next second =>
      -- A root was started and is closed again.
      cases misfit
      have closed : b.opened = [] := after.opened_eq_nil_iff.mpr second.1
      have nonempty : b.nodes ≠ #[] := Array.size_pos_iff.mp (after.started.mpr second.2)
      rw [if_neg composite, if_pos (by simp [closed, nonempty])]
    next => cases misfit

theorem ofLength_of_lt {start length : Nat} (large : maxOffset < start + length) :
    Span.ofLength start length = .error (.endTooLarge (min (start + length) maxLength)) := by
  unfold Span.ofLength
  dsimp only
  split
  next huge => rw [Nat.min_eq_right (Nat.le_of_lt huge)]
  next fits => rw [Nat.min_eq_left (Nat.le_of_not_lt fits)]

theorem token_of_misfit (after : b.After source events) {kind : Kind} {length : Nat}
    {cause : BuildError} (misfit : misfit? source events (.token kind length) = some cause) :
    b.token kind length = .error cause := by
  simp only [misfit?] at misfit
  unfold Builder.token
  rw [after.source, after.offset]
  -- The builder asks in the same order; the span is refused when its end is too large.
  split at misfit
  next composite =>
    cases misfit
    rw [if_pos (by simpa using composite)]
  next isToken =>
    rw [if_neg (by simpa using isToken)]
    split at misfit
    next outside =>
      cases misfit
      rw [if_pos (by simpa using after.opened_eq_nil_iff.mpr outside)]
    next inside =>
      rw [if_neg (by simpa [after.opened_eq_nil_iff] using inside)]
      split at misfit
      next large =>
        cases misfit
        rw [ofLength_of_lt large]
      next small =>
        rw [(ofLength_ok_iff _ _ _).mpr ⟨Nat.le_of_not_lt small, rfl⟩]
        dsimp only
        split at misfit
        next past =>
          cases misfit
          rw [if_pos past]
        next within =>
          rw [if_neg within]
          split at misfit
          next between =>
            cases misfit
            rw [if_pos (by simpa using between)]
          next => cases misfit

theorem finish_of_misfit (after : b.After source events) {cause : BuildError}
    (misfit : misfit? source events .finish = some cause) : b.finish = .error cause := by
  simp only [misfit?] at misfit
  split at misfit
  next closed =>
    cases misfit
    rw [Builder.finish, after.opened_eq_nil_iff.mpr closed]
  next => cases misfit

theorem apply_of_misfit (after : b.After source events) {cause : BuildError}
    (misfit : misfit? source events event = some cause) : b.apply event = .error cause := by
  cases event with
  | start kind => exact after.start_of_misfit misfit
  | token kind length => exact after.token_of_misfit misfit
  | finish => exact after.finish_of_misfit misfit

/-! ### An event that fits is taken -/

theorem start_of_fit (after : b.After source events) (room : b.nodes.size ≤ NodeId.invalid)
    {kind : Kind} (fit : misfit? source events (.start kind) = none) :
    ∃ next, b.start kind = .ok next ∧ next.After source (events ++ [.start kind]) := by
  simp only [misfit?] at fit
  split at fit
  next => cases fit
  next composite =>
    split at fit
    next => cases fit
    next first =>
      -- Outside all nodes a start fits only as the very first one.
      have only : b.opened = [] → b.nodes.size = 0 := by
        intro closed
        by_contra nonempty
        exact first ⟨after.opened_eq_nil_iff.mp closed,
          after.started.mp (Nat.pos_of_ne_zero nonempty)⟩
      refine ⟨_, (start_ok_iff _ _ _).mpr ⟨by simpa using composite, only, room, rfl⟩, ?_⟩
      refine ⟨after.source, after.failure, ?_, ?_, ?_, ?_, ?_⟩
      · simp [Event.weight, ← after.depth]
      · simp [Event.width, ← after.offset, attach]
      · simp [Event.addsNode, size_attach, after.count]
      · simp [Event.isStart, size_attach]
      · simp [size_attach]

theorem token_of_fit (after : b.After source events) (room : b.nodes.size ≤ NodeId.invalid)
    {kind : Kind} {length : Nat} (fit : misfit? source events (.token kind length) = none) :
    ∃ next, b.token kind length = .ok next ∧
      next.After source (events ++ [.token kind length]) := by
  simp only [misfit?] at fit
  -- What the grammar has asked of the events before, the builder asks of its own state.
  split_ifs at fit with composite outside large past between
  have opened : b.opened ≠ [] := fun closed => outside (after.opened_eq_nil_iff.mp closed)
  rw [← after.offset] at large past between
  rw [← after.source] at past between
  refine ⟨_, (token_ok_iff _ _ _ _).mpr ⟨by simpa using composite, opened,
    Nat.le_of_not_lt large, Nat.le_of_not_lt past, by simpa using between, room, rfl⟩, ?_⟩
  refine ⟨after.source, after.failure, ?_, ?_, ?_, ?_, ?_⟩
  · simp [Event.weight, ← after.depth, opened_attach]
  · simp [Event.width, after.offset]
  · simp [Event.addsNode, size_attach, after.count]
  · simp [Event.isStart, size_attach, ← after.started, after.inside opened]
  · simp [size_attach]

theorem finish_of_fit (after : b.After source events)
    (fit : misfit? source events .finish = none) :
    ∃ next, b.finish = .ok next ∧ next.After source (events ++ [.finish]) := by
  simp only [misfit?] at fit
  split at fit
  next => cases fit
  next inside =>
    have opened : b.opened ≠ [] := fun closed => inside (after.opened_eq_nil_iff.mp closed)
    obtain ⟨id, outer, split⟩ := List.exists_cons_of_ne_nil opened
    have depth := after.depth
    rw [split, List.length_cons] at depth
    refine ⟨_, (finish_ok_iff _ _).mpr ⟨id, outer, split, rfl⟩, ?_⟩
    refine ⟨after.source, after.failure, ?_, ?_, ?_, ?_, ?_⟩
    · simp only [closed, depthAfter_concat, Event.weight, ← depth]
      omega
    · simp [Event.width, ← after.offset, closed]
    · simpa [Event.addsNode, size_closed] using after.count
    · simpa [Event.isStart, size_closed] using after.started
    · simpa [size_closed] using fun _ => after.inside opened

theorem apply_of_fit (after : b.After source events)
    (room : nodesAfter (events ++ [event]) ≤ NodeId.invalid + 1)
    (fit : misfit? source events event = none) :
    ∃ next, b.apply event = .ok next ∧ next.After source (events ++ [event]) := by
  rw [nodesAfter_concat, ← after.count] at room
  cases event with
  | start kind => exact after.start_of_fit (Nat.le_of_succ_le_succ room) fit
  | token kind length => exact after.token_of_fit (Nat.le_of_succ_le_succ room) fit
  | finish => exact after.finish_of_fit fit

end After

/-! ### Whole runs -/

/-- As long as all events fit, the builder stands where they lead. -/
theorem after_run {source : Text} {events : List Event} (fits : Fits source events)
    (room : nodesAfter events ≤ NodeId.invalid + 1) :
    (events.foldl feed (Builder.new source)).After source events := by
  -- By induction on the events from their end: the last one is taken where the others have led.
  induction events using List.reverseRecOn with
  | nil => exact After.new source
  | append_singleton events event ih =>
    obtain ⟨fits, fit⟩ := fits_concat.mp fits
    have fewer : nodesAfter events ≤ NodeId.invalid + 1 := by
      rw [nodesAfter_concat] at room
      exact Nat.le_of_add_right_le room
    have after := ih fits fewer
    obtain ⟨next, taken, there⟩ := after.apply_of_fit room fit
    rw [List.foldl_append, List.foldl_cons, List.foldl_nil, feed_of_apply after.failure taken]
    exact there

/-- The first event that does not fit is reported, whatever events follow. -/
theorem tree_of_misfit {source : Text} {before : List Event} {event : Event} {cause : BuildError}
    (fits : Fits source before) (room : nodesAfter before ≤ NodeId.invalid + 1)
    (misfit : misfit? source before event = some cause) (after : List Event) :
    ((before ++ event :: after).foldl feed (Builder.new source)).tree = .error cause := by
  have here := after_run fits room
  rw [List.foldl_append, List.foldl_cons]
  generalize before.foldl feed (Builder.new source) = b at here
  -- Once an event has failed, the builder takes no other.
  have failed : (b.feed event).failure? = some cause := by
    rw [feed, here.failure, here.apply_of_misfit misfit]
  rw [foldl_feed_of_failure failed, Builder.tree, failed]

variable {source : Text} {events : List Event} {b : Builder}

theorem After.tree_of_unfinished (after : b.After source events) {cause : BuildError}
    (unfinished : unfinished? source events = some cause) : b.tree = .error cause := by
  unfold unfinished? at unfinished
  unfold Builder.tree
  rw [after.failure, after.offset, after.source]
  -- The three questions at the end are asked in the same order.
  split at unfinished
  next nothing =>
    cases unfinished
    have empty : b.nodes = #[] := by simpa [Array.size_pos_iff] using mt after.started.mp nothing
    simp [empty]
  next started =>
    have nonempty : b.nodes ≠ #[] :=
      Array.size_pos_iff.mp (after.started.mpr (by simpa using started))
    split at unfinished
    next inside =>
      cases unfinished
      have opened : b.opened ≠ [] := fun closed =>
        Int.ne_of_gt inside (after.opened_eq_nil_iff.mp closed)
      simp [nonempty, opened, ← after.depth]
    next outside =>
      have closed : b.opened = [] := by
        have depth := after.depth
        exact List.length_eq_zero_iff.mp (by omega)
      split at unfinished
      next trailing =>
        cases unfinished
        simp [nonempty, closed, trailing]
      next => cases unfinished

theorem After.tree_of_finished (after : b.After source events)
    (finished : unfinished? source events = none) : b.tree = .ok b.soFar := by
  unfold unfinished? at finished
  split_ifs at finished with nothing inside trailing
  have depth := after.depth
  refine (tree_ok_iff _ _).mpr ⟨after.failure, after.started.mpr (by simpa using nothing), ?_, ?_,
    rfl⟩
  · exact List.length_eq_zero_iff.mp (by omega)
  · rw [after.source, after.offset]
    exact Nat.le_of_not_lt trailing

end Builder

/-! ### Main result -/

/-- What events come to is told by the grammar: the cause of the first event that does not fit, or
else what is missing at the end, or else there is a tree. -/
structure FollowsGrammar (source : Text) (events : List Event)
    (outcome : Except BuildError SyntaxTree) : Prop where
  covered : Fits source events ∨ ∃ before event after cause, events = before ++ event :: after ∧
    Fits source before ∧ misfit? source before event = some cause
  misfit : ∀ before event after cause, events = before ++ event :: after → Fits source before →
    nodesAfter before < 0x100000000 → misfit? source before event = some cause →
    outcome = .error cause
  unfinished : ∀ cause, Fits source events → nodesAfter events < 0x100000000 →
    unfinished? source events = some cause → outcome = .error cause
  finished : Fits source events → nodesAfter events < 0x100000000 →
    unfinished? source events = none → ∃ tree, outcome = .ok tree

theorem SyntaxTree.ofEvents_followsGrammar (source : Text) (events : List Event) :
    FollowsGrammar source events (ofEvents source events) where
  covered := fits_or_exists_misfit source events
  misfit := by
    rintro before event after cause rfl fits few misfit
    exact Builder.tree_of_misfit fits (Nat.le_of_lt few) misfit after
  unfinished := by
    intro cause fits few unfinished
    exact (Builder.after_run fits (Nat.le_of_lt few)).tree_of_unfinished unfinished
  finished := by
    intro fits few finished
    exact ⟨_, (Builder.after_run fits (Nat.le_of_lt few)).tree_of_finished finished⟩

/-- A token that ends inside a character is reported, and nothing that comes after it. -/
example : SyntaxTree.ofEvents ['é'] [.start .file, .token .identifier 1, .start .number] =
    .error (.notCharBoundary .identifier 0) := rfl

end LuaTree
