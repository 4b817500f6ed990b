import LuaTree.Session

/-!
# What steps change

A step asks at most one file and leaves the others as they are; the views of a session change only
where an answer leaves new ones and where a view that was asked has bound its node.
-/

namespace LuaTree

/-- The elements that the views in a slot see. -/
def Slot.elements : Slot → List Element
  | .nothing => []
  | .one view => [view.element]
  | .many views => views.map (·.element)

/-- The elements that the views and calls in an answer are of. -/
def Answer.elements : Answer → List Element
  | .view found => [found.element]
  | .views found => found.map (·.element)
  | .calls recorded => recorded.map (·.element)
  | _ => []

/-- The elements that the views of a session see. -/
def Session.elements (s : Session) : List Element := s.slots.toList.flatMap (·.elements)

theorem Answer.mem_elements_of_slot {answer : Answer} {e : Element}
    (member : e ∈ answer.slot.elements) : e ∈ answer.elements := by
  cases answer <;> simp_all [Answer.slot, Slot.elements, Answer.elements]

theorem Slot.mem_elements_of_view? {slot : Slot} {item? : Option Nat} {view : View}
    (there : slot.view? item? = some view) : view.element ∈ slot.elements := by
  unfold Slot.view? at there
  split at there
  next => simp_all [Slot.elements]
  next => exact List.mem_map_of_mem (List.mem_of_getElem? there)
  next => cases there

theorem Slot.eq_or_mem_of_setElement {slot : Slot} {item? : Option Nat} {e x : Element}
    (member : x ∈ (slot.setElement item? e).elements) : x = e ∨ x ∈ slot.elements := by
  unfold Slot.setElement at member
  split at member
  next => simp_all [Slot.elements]
  next views i =>
    obtain ⟨view, stands, rfl⟩ := List.mem_map.mp member
    obtain ⟨k, found⟩ := List.mem_iff_getElem?.mp stands
    rw [List.getElem?_modify] at found
    obtain ⟨old, there, rfl⟩ := Option.map_eq_some_iff.mp found
    split
    next => exact .inl rfl
    next => exact .inr (List.mem_map_of_mem (List.mem_of_getElem? there))
  next => exact .inr member

theorem Slot.view?_setElement_self {slot : Slot} {item? : Option Nat} {view : View}
    (there : slot.view? item? = some view) (e : Element) :
    (slot.setElement item? e).view? item? = some { view with element := e } := by
  unfold Slot.view? at there
  split at there
  next =>
    cases there
    rfl
  next => simp [Slot.setElement, Slot.view?, there]
  next => cases there

theorem Slot.view?_setElement_of_ne {item? other? : Option Nat} (apart : other? ≠ item?)
    (slot : Slot) (e : Element) : (slot.setElement item? e).view? other? = slot.view? other? := by
  unfold Slot.setElement
  split
  next =>
    cases other? with
    | none => exact absurd rfl apart
    | some k => rfl
  next views i =>
    cases other? with
    | none => rfl
    | some k =>
      have differ : i ≠ k := fun same => apart (same ▸ rfl)
      simp [Slot.view?, differ]
  next => rfl

theorem Slot.exists_view_of_setElement {slot : Slot} {on? item? : Option Nat} {e : Element}
    {w : View} (shown : (slot.setElement on? e).view? item? = some w) :
    ∃ v, slot.view? item? = some v := by
  by_cases same : item? = on?
  · subst same
    unfold Slot.setElement at shown
    split at shown
    next view => exact ⟨view, rfl⟩
    next views i =>
      obtain ⟨v, there, _⟩ := Option.map_eq_some_iff.mp ((List.getElem?_modify ..).symm.trans shown)
      exact ⟨v, there⟩
    next => exact ⟨w, shown⟩
  · exact ⟨w, (Slot.view?_setElement_of_ne same slot e).symm.trans shown⟩

theorem View.eq_of_element_eq {v w : View} (shape : w.shape = v.shape)
    (element : w.element = v.element) : w = v := by
  cases v
  cases w
  simp_all

/-- The views that a step asks. -/
def Step.asks : Step → List Ref
  | .file _ _ => []
  | .view on _ => [on]
  | .same on other => [on, other]

namespace Session

variable {s : Session} {id : FileId} {file : File}

/-- What a step does. It asks one file, and keeps the views that it asked as they are afterwards; it
does nothing when there is no such file or view. -/
inductive Takes (s : Session) : Step → Answer → Session → Prop
  | skip (step : Step) : Takes s step .skip (s.push .nothing)
  | file {id : FileId} {question : FileQuestion} {answer : Answer} {t : Session}
      (asked : s.onFile id (question.ask id) = some (.ok answer, t)) :
      Takes s (.file id question) answer (t.push answer.slot)
  | fileFault {id : FileId} {question : FileQuestion} {cause : Fault} {t : Session}
      (asked : s.onFile id (question.ask id) = some (.error cause, t)) :
      Takes s (.file id question) (.fault cause) (t.push .nothing)
  | view {on : Ref} {question : Question} {view : View} {answer : Answer} {e : Element}
      {t : Session} (there : s.view? on = some view)
      (asked : s.onFile view.element.file (question.ask view) = some (.ok (answer, e), t)) :
      Takes s (.view on question) answer ((t.setElement on e).push answer.slot)
  | viewFault {on : Ref} {question : Question} {view : View} {cause : Fault} {t : Session}
      (there : s.view? on = some view)
      (asked : s.onFile view.element.file (question.ask view) = some (.error cause, t)) :
      Takes s (.view on question) (.fault cause) (t.push .nothing)
  | same {on other : Ref} {v w : View} {answer : Bool} {a b : Element} {t : Session}
      (there : s.view? on = some v) (also : s.view? other = some w)
      (asked : s.onFile v.element.file (v.element.same w.element) = some (.ok (answer, a, b), t)) :
      Takes s (.same on other) (.flag answer)
        (((t.setElement on a).setElement other b).push .nothing)
  | sameFault {on other : Ref} {v w : View} {cause : Fault} {t : Session}
      (there : s.view? on = some v) (also : s.view? other = some w)
      (asked : s.onFile v.element.file (v.element.same w.element) = some (.error cause, t)) :
      Takes s (.same on other) (.fault cause) (t.push .nothing)

theorem takes_step (s : Session) (step : Step) : s.Takes step (s.step step).1 (s.step step).2 := by
  cases step with
  | file id question =>
    unfold Session.step stepFile
    dsimp only
    split
    next => exact .skip _
    next asked => exact .fileFault asked
    next asked => exact .file asked
  | view on question =>
    unfold Session.step stepView
    dsimp only
    split
    next => exact .skip _
    next there =>
      split
      next => exact .skip _
      next asked => exact .viewFault there asked
      next asked => exact .view there asked
  | same on other =>
    unfold Session.step stepSame
    dsimp only
    split
    next there also =>
      split
      next => exact .skip _
      next asked => exact .sameFault there also asked
      next asked => exact .same there also asked
    next => exact .skip _

/-! ### Files -/

@[simp] theorem files_push (s : Session) (slot : Slot) : (s.push slot).files = s.files := rfl

@[simp] theorem files_setElement (s : Session) (ref : Ref) (e : Element) :
    (s.setElement ref e).files = s.files := rfl

theorem getElem?_files_onFile {α : Type} {other : FileId} {ask : FileM α} {t : Session}
    {answer : Except Fault α} (asked : s.onFile other ask = some (answer, t))
    (there : s.files[id]? = some file) :
    t.files[id]? = some (if other = id then (ask.run file).2 else file) := by
  obtain ⟨asker, found, same⟩ := Option.map_eq_some_iff.mp asked
  obtain ⟨_, rfl⟩ := Prod.mk.inj same
  have inside := (Array.getElem?_eq_some_iff.mp there).1
  rw [Array.getElem?_setIfInBounds]
  split
  next here =>
    subst here
    obtain rfl := Option.some.inj (found.symm.trans there)
    exact if_pos inside
  next => exact there

theorem size_files_onFile {α : Type} {ask : FileM α} {t : Session} {answer : Except Fault α}
    (asked : s.onFile id ask = some (answer, t)) : t.files.size = s.files.size := by
  obtain ⟨file, _, same⟩ := Option.map_eq_some_iff.mp asked
  obtain ⟨_, rfl⟩ := Prod.mk.inj same
  simp

theorem Takes.size_files {step : Step} {answer : Answer} {t : Session}
    (takes : s.Takes step answer t) : t.files.size = s.files.size := by
  cases takes with
  | skip => rfl
  | file asked | fileFault asked | view _ asked | viewFault _ asked | same _ _ asked
  | sameFault _ _ asked => simp [size_files_onFile asked]

theorem size_files_run (s : Session) (steps : List Step) :
    (s.run steps).2.files.size = s.files.size := by
  induction steps generalizing s with
  | nil => rfl
  | cons step steps ih => exact (ih _).trans (s.takes_step step).size_files

/-- What the questions of a step leave of a file is left by the step. -/
theorem Takes.exists_file {step : Step} {answer : Answer} {t : Session} {P : File → Prop}
    (takes : s.Takes step answer t) (there : s.files[id]? = some file) (still : P file)
    (onFile : ∀ question, step = .file id question → P ((question.ask id).run file).2)
    (onView : ∀ on question view, step = .view on question → s.view? on = some view →
      view.element.file = id → P ((question.ask view).run file).2)
    (onSame : ∀ on other v w, step = .same on other → s.view? on = some v →
      s.view? other = some w → v.element.file = id →
        P ((v.element.same w.element).run file).2) :
    ∃ after, t.files[id]? = some after ∧ P after := by
  have onAsking : ∀ {α : Type} {other : FileId} {ask : FileM α} {t : Session}
      {outcome : Except Fault α}, s.onFile other ask = some (outcome, t) →
      (other = id → P (ask.run file).2) → ∃ after, t.files[id]? = some after ∧ P after := by
    intro α other ask t outcome asked leaves
    refine ⟨_, getElem?_files_onFile asked there, ?_⟩
    split
    next here => exact leaves here
    next => exact still
  cases takes with
  | skip => exact ⟨file, there, still⟩
  | file asked | fileFault asked =>
    simpa using onAsking asked fun here => here ▸ onFile _ (here ▸ rfl)
  | view found asked | viewFault found asked =>
    simpa using onAsking asked (onView _ _ _ rfl found)
  | same found also asked | sameFault found also asked =>
    simpa using onAsking asked (onSame _ _ _ _ rfl found also)

/-! ### Views -/

theorem mem_elements_of_view? {on : Ref} {view : View} (there : s.view? on = some view) :
    view.element ∈ s.elements := by
  obtain ⟨slot, stands, found⟩ := Option.bind_eq_some_iff.mp there
  refine List.mem_flatMap.mpr ⟨slot, ?_, slot.mem_elements_of_view? found⟩
  exact Array.mem_toList_iff.mpr (Array.mem_of_getElem? stands)

theorem forall_elements_push {slot : Slot} {P : Element → Prop} :
    (∀ e ∈ (s.push slot).elements, P e) ↔
      (∀ e ∈ s.elements, P e) ∧ ∀ e ∈ slot.elements, P e := by
  simp [elements, push, or_imp, forall_and]

theorem eq_or_mem_of_setElement {on : Ref} {e x : Element}
    (member : x ∈ (s.setElement on e).elements) : x = e ∨ x ∈ s.elements := by
  obtain ⟨slot, among, within⟩ := List.mem_flatMap.mp member
  obtain ⟨k, found⟩ := List.mem_iff_getElem?.mp among
  simp only [setElement, Array.toList_modify, List.getElem?_modify] at found
  obtain ⟨old, there, rfl⟩ := Option.map_eq_some_iff.mp found
  have kept : old ∈ s.slots.toList := List.mem_of_getElem? there
  split at within
  next =>
    exact (Slot.eq_or_mem_of_setElement within).imp_right fun inside =>
      List.mem_flatMap.mpr ⟨old, kept, inside⟩
  next => exact .inr (List.mem_flatMap.mpr ⟨old, kept, within⟩)

theorem forall_elements_setElement {e : Element} {P : Element → Prop}
    (all : ∀ x ∈ s.elements, P x) (here : P e) (on : Ref) :
    ∀ x ∈ (s.setElement on e).elements, P x := by
  intro x member
  rcases eq_or_mem_of_setElement member with rfl | kept
  · exact here
  · exact all x kept

theorem view?_push_of_some {ref : Ref} {view : View} (there : s.view? ref = some view)
    (slot : Slot) : (s.push slot).view? ref = some view := by
  obtain ⟨old, stands, found⟩ := Option.bind_eq_some_iff.mp there
  have inside := (Array.getElem?_eq_some_iff.mp stands).1
  have still : (s.push slot).slots[ref.answer]? = some old := by
    rw [push, Array.getElem?_push_lt inside, ← Array.getElem?_eq_getElem inside, stands]
  rw [view?, still]
  exact found

theorem view?_setElement_self {ref : Ref} {view : View} (there : s.view? ref = some view)
    (e : Element) : (s.setElement ref e).view? ref = some { view with element := e } := by
  obtain ⟨old, stands, found⟩ := Option.bind_eq_some_iff.mp there
  simp [view?, setElement, Array.getElem?_modify, stands, Slot.view?_setElement_self found]

theorem view?_setElement_of_ne {ref on : Ref} (apart : ref ≠ on) (s : Session) (e : Element) :
    (s.setElement on e).view? ref = s.view? ref := by
  simp only [view?, setElement, Array.getElem?_modify]
  split
  next here =>
    -- Another view of the same answer.
    have items : ref.item? ≠ on.item? := fun same => apart (by cases ref; cases on; simp_all)
    cases s.slots[ref.answer]? with
    | none => rfl
    | some slot => simp [Slot.view?_setElement_of_ne items]
  next => rfl

theorem view?_push {ref : Ref} {w : View} {slot : Slot} (shown : (s.push slot).view? ref = some w) :
    s.view? ref = some w ∨ ref.answer = s.slots.size ∧ slot.view? ref.item? = some w := by
  obtain ⟨found, stands, there⟩ := Option.bind_eq_some_iff.mp shown
  simp only [push, Array.getElem?_push] at stands
  split at stands
  next here =>
    cases stands
    exact .inr ⟨here, there⟩
  next => exact .inl (Option.bind_eq_some_iff.mpr ⟨found, stands, there⟩)

theorem exists_view_of_setElement {ref on : Ref} {e : Element} {w : View}
    (shown : (s.setElement on e).view? ref = some w) : ∃ v, s.view? ref = some v := by
  obtain ⟨found, stands, there⟩ := Option.bind_eq_some_iff.mp shown
  simp only [setElement, Array.getElem?_modify] at stands
  split at stands
  next =>
    obtain ⟨slot, kept, rfl⟩ := Option.map_eq_some_iff.mp stands
    obtain ⟨v, held⟩ := Slot.exists_view_of_setElement there
    exact ⟨v, Option.bind_eq_some_iff.mpr ⟨slot, kept, held⟩⟩
  next => exact ⟨w, Option.bind_eq_some_iff.mpr ⟨found, stands, there⟩⟩

theorem view?_onFile {α : Type} {ask : FileM α} {t : Session} {answer : Except Fault α}
    (asked : s.onFile id ask = some (answer, t)) (ref : Ref) : t.view? ref = s.view? ref := by
  obtain ⟨_, _, same⟩ := Option.map_eq_some_iff.mp asked
  obtain ⟨_, rfl⟩ := Prod.mk.inj same
  rfl

theorem size_slots_onFile {α : Type} {ask : FileM α} {t : Session} {answer : Except Fault α}
    (asked : s.onFile id ask = some (answer, t)) : t.slots.size = s.slots.size := by
  obtain ⟨_, _, same⟩ := Option.map_eq_some_iff.mp asked
  obtain ⟨_, rfl⟩ := Prod.mk.inj same
  rfl

theorem elements_onFile {α : Type} {ask : FileM α} {t : Session} {answer : Except Fault α}
    (asked : s.onFile id ask = some (answer, t)) :
    t.elements = s.elements ∧
      ∃ file, s.files[id]? = some file ∧ (ask.run file).1 = answer := by
  obtain ⟨file, found, same⟩ := Option.map_eq_some_iff.mp asked
  obtain ⟨rfl, rfl⟩ := Prod.mk.inj same
  exact ⟨rfl, file, found, rfl⟩

/-- What holds of every element that an answer leaves, and of every view after it was asked, holds
of all elements of a session. -/
theorem Takes.forall_elements {step : Step} {answer : Answer} {t : Session} {P : Element → Prop}
    (takes : s.Takes step answer t) (all : ∀ e ∈ s.elements, P e)
    (onFile : ∀ id question file answer, step = .file id question → s.files[id]? = some file →
      ((question.ask id).run file).1 = .ok answer → ∀ e ∈ answer.elements, P e)
    (onView : ∀ question view file answer after, P view.element →
      s.files[view.element.file]? = some file →
      ((Question.ask question view).run file).1 = .ok (answer, after) →
        P after ∧ ∀ e ∈ answer.elements, P e)
    (onSame : ∀ v w file flag a b, P v → P w → s.files[v.file]? = some file →
      ((Element.same v w).run file).1 = .ok (flag, a, b) → P a ∧ P b) :
    (∀ e ∈ answer.elements, P e) ∧ ∀ e ∈ t.elements, P e := by
  have kept : ∀ {α : Type} {id : FileId} {ask : FileM α} {outcome : Except Fault α} {t : Session},
      s.onFile id ask = some (outcome, t) → ∀ e ∈ t.elements, P e :=
    fun asked => (elements_onFile asked).1 ▸ all
  cases takes with
  | skip =>
    exact ⟨by simp [Answer.elements], forall_elements_push.mpr ⟨all, by simp [Slot.elements]⟩⟩
  | file asked =>
    obtain ⟨_, file, there, answers⟩ := elements_onFile asked
    have answered := onFile _ _ file _ rfl there answers
    refine ⟨answered, forall_elements_push.mpr ⟨kept asked, fun e left => ?_⟩⟩
    exact answered e (Answer.mem_elements_of_slot left)
  | view shown asked =>
    obtain ⟨_, file, there, answers⟩ := elements_onFile asked
    obtain ⟨after, answered⟩ :=
      onView _ _ file _ _ (all _ (mem_elements_of_view? shown)) there answers
    have rebound := forall_elements_setElement (kept asked) after
    refine ⟨answered, forall_elements_push.mpr ⟨rebound _, fun e left => ?_⟩⟩
    exact answered e (Answer.mem_elements_of_slot left)
  | same shown also asked =>
    -- Both views are put back, the second one where the first may already stand.
    obtain ⟨_, file, there, answers⟩ := elements_onFile asked
    obtain ⟨first, second⟩ := onSame _ _ file _ _ _ (all _ (mem_elements_of_view? shown))
      (all _ (mem_elements_of_view? also)) there answers
    have rebound := forall_elements_setElement (kept asked) first
    have again := fun on => forall_elements_setElement (rebound on) second
    exact ⟨by simp [Answer.elements], forall_elements_push.mpr ⟨again _ _, by simp [Slot.elements]⟩⟩
  | fileFault asked | viewFault _ asked | sameFault _ _ asked =>
    exact ⟨by simp [Answer.elements],
      forall_elements_push.mpr ⟨kept asked, by simp [Slot.elements]⟩⟩

theorem exists_view_setElement {ref : Ref} {v : View} {P : Element → Prop}
    (there : s.view? ref = some v) (on : Ref) (e : Element) (other : ref ≠ on → P v.element)
    (here : ref = on → P e) :
    ∃ w, (s.setElement on e).view? ref = some w ∧ w.shape = v.shape ∧ P w.element := by
  by_cases same : ref = on
  · subst same
    exact ⟨_, view?_setElement_self there e, rfl, here rfl⟩
  · exact ⟨v, (view?_setElement_of_ne same s e).trans there, rfl, other same⟩

/-- A stored view is what it was, or what a question to it has left of it. -/
theorem Takes.exists_view {step : Step} {answer : Answer} {t : Session} {ref : Ref} {v : View}
    {P : Element → Prop} (takes : s.Takes step answer t) (there : s.view? ref = some v)
    (still : P v.element)
    (onView : ∀ question file answer after, step = .view ref question →
      s.files[v.element.file]? = some file →
      ((Question.ask question v).run file).1 = .ok (answer, after) → P after)
    (onFirst : ∀ other w file flag a b, step = .same ref other → s.view? other = some w →
      s.files[v.element.file]? = some file →
      ((v.element.same w.element).run file).1 = .ok (flag, a, b) → P a)
    (onSecond : ∀ on w file flag a b, step = .same on ref → s.view? on = some w →
      s.files[w.element.file]? = some file →
      ((w.element.same v.element).run file).1 = .ok (flag, a, b) → P b) :
    ∃ w, t.view? ref = some w ∧ w.shape = v.shape ∧ P w.element := by
  have kept : ∀ {α : Type} {id : FileId} {ask : FileM α} {outcome : Except Fault α} {t : Session},
      s.onFile id ask = some (outcome, t) → t.view? ref = some v :=
    fun asked => (view?_onFile asked ref).trans there
  cases takes with
  | skip => exact ⟨v, view?_push_of_some there _, rfl, still⟩
  | file asked | fileFault asked | viewFault _ asked | sameFault _ _ asked =>
    exact ⟨v, view?_push_of_some (kept asked) _, rfl, still⟩
  | @view on _ _ _ e _ shown asked =>
    obtain ⟨_, file, found, answers⟩ := elements_onFile asked
    have here : ref = on → P e := by
      rintro rfl
      obtain rfl := Option.some.inj (there.symm.trans shown)
      exact onView _ file _ _ rfl found answers
    obtain ⟨w, stored, rest⟩ := exists_view_setElement (kept asked) on e (fun _ => still) here
    exact ⟨w, view?_push_of_some stored _, rest⟩
  | @same on other _ _ _ a b _ shown also asked =>
    obtain ⟨_, file, found, answers⟩ := elements_onFile asked
    have first : ref = on → P a := by
      rintro rfl
      obtain rfl := Option.some.inj (there.symm.trans shown)
      exact onFirst _ _ file _ _ _ rfl also found answers
    have second : ref = other → P b := by
      rintro rfl
      obtain rfl := Option.some.inj (there.symm.trans also)
      exact onSecond _ _ file _ _ _ rfl shown found answers
    -- A view that is compared with itself is stored twice.
    obtain ⟨w, stored, shape, holds⟩ :=
      exists_view_setElement (kept asked) on a (fun _ => still) first
    obtain ⟨w', again, same, rest⟩ := exists_view_setElement stored other b (fun _ => holds) second
    exact ⟨w', view?_push_of_some again _, same.trans shape, rest⟩

theorem Takes.size_slots {step : Step} {answer : Answer} {t : Session}
    (takes : s.Takes step answer t) : t.slots.size = s.slots.size + 1 := by
  cases takes with
  | skip => simp [push]
  | file asked | fileFault asked | view _ asked | viewFault _ asked | same _ _ asked
  | sameFault _ _ asked => simp [push, setElement, size_slots_onFile asked]

/-- A view that is stored after a step was stored before it, or it is one of those that the answer
leaves. -/
theorem Takes.exists_old_or_left {step : Step} {answer : Answer} {t : Session} {ref : Ref}
    {w : View} (takes : s.Takes step answer t) (shown : t.view? ref = some w) :
    (∃ v, s.view? ref = some v) ∨ ref.answer = s.slots.size ∧ w.element ∈ answer.elements := by
  have kept : ∀ {α : Type} {id : FileId} {ask : FileM α} {outcome : Except Fault α} {r : Session},
      s.onFile id ask = some (outcome, r) → ∀ w, r.view? ref = some w → ∃ v, s.view? ref = some v :=
    fun asked w old => ⟨w, (view?_onFile asked ref).symm.trans old⟩
  have pushed : ∀ {r : Session} {slot : Slot}, r.slots.size = s.slots.size →
      (∀ w, r.view? ref = some w → ∃ v, s.view? ref = some v) →
      slot = .nothing ∨ slot = answer.slot → (r.push slot).view? ref = some w →
      (∃ v, s.view? ref = some v) ∨ ref.answer = s.slots.size ∧ w.element ∈ answer.elements := by
    -- A view after the step was there before, or stands in the slot that the step has left.
    intro r slot size old left shown
    rcases view?_push shown with before | ⟨here, found⟩
    · exact .inl (old w before)
    · rcases left with rfl | rfl
      · cases found
      · have among := Answer.mem_elements_of_slot (Slot.mem_elements_of_view? found)
        exact .inr ⟨here.trans size, among⟩
  cases takes with
  | skip => exact pushed rfl (fun w old => ⟨w, old⟩) (.inl rfl) shown
  | fileFault asked | viewFault _ asked | sameFault _ _ asked =>
    exact pushed (size_slots_onFile asked) (kept asked) (.inl rfl) shown
  | file asked => exact pushed (size_slots_onFile asked) (kept asked) (.inr rfl) shown
  | view _ asked =>
    refine pushed (by simp [setElement, size_slots_onFile asked]) (fun w new => ?_) (.inr rfl) shown
    obtain ⟨v, old⟩ := exists_view_of_setElement new
    exact kept asked v old
  | same _ _ asked =>
    refine pushed (by simp [setElement, size_slots_onFile asked]) (fun w new => ?_) (.inl rfl) shown
    obtain ⟨v, stored⟩ := exists_view_of_setElement new
    obtain ⟨u, old⟩ := exists_view_of_setElement stored
    exact kept asked u old

/-- A step leaves the views as they are that it does not ask. -/
theorem Takes.view?_of_not_asked {step : Step} {answer : Answer} {t : Session} {ref : Ref}
    {v : View} (takes : s.Takes step answer t) (there : s.view? ref = some v)
    (apart : ref ∉ step.asks) : t.view? ref = some v := by
  obtain ⟨w, stored, shape, same⟩ := takes.exists_view (P := (· = v.element)) there rfl
    (fun _ _ _ _ asks => absurd (by simp [asks, Step.asks]) apart)
    (fun _ _ _ _ _ _ asks => absurd (by simp [asks, Step.asks]) apart)
    (fun _ _ _ _ _ _ asks => absurd (by simp [asks, Step.asks]) apart)
  exact View.eq_of_element_eq shape same ▸ stored

end Session

end LuaTree
