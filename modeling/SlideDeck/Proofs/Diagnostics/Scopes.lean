import SlideDeck.Proofs.Diagnostics.Bookkeeping

/-! # Scopes nest

While a program closes its scopes in order, every event shows the slide of the
innermost scope that is open when it is recorded, and in whatever order scopes
are closed, closing one makes the slide current that was so when that very scope
was opened (`Broadcast.run?_nested`).

* `Broadcast.enclosing?` reads off a program the slides of the scopes that it has
  open, and `Broadcast.openings` where it opened them.
* `Broadcast.Moved`: all that one action can do to the current slide and the
  scopes.
* `Broadcast.run?_slides` and `Broadcast.run?_opened`: what a whole run comes to,
  with scopes closed in order and in any order.

A scope keeps a single slide, not a stack.  But the current slide followed by
those that the open scopes keep is one (`Broadcast.slides`): opening a scope
pushes on it and closing the innermost one pops, so it is the slides that the
program has open on top of those from before it. -/

namespace SlideDeck.Broadcast

variable {start b b' : Broadcast} {action : Action} {actions : List Action}

/-! ## Reading a program -/

/-- The slides of the scopes that are open after one more action, the innermost one first, unless
the action closes another scope than the innermost one. -/
def enter (slides : List Nat) : Action → Option (List Nat)
  | .openScope slide => some (slide :: slides)
  | .closeScope 0 => slides.tail?
  | .closeScope (_ + 1) => none
  | _ => some slides

/-- The slides of the scopes that a program has opened and not closed, the innermost one first, if
it closes them in order. -/
def enclosing? (program : List Action) : Option (List Nat) :=
  program.foldlM enter []

/-- A program that closes each scope that it opens, always the innermost one, and no other. -/
def WellNested (program : List Action) : Prop :=
  enclosing? program = some []

instance (program : List Action) : Decidable (WellNested program) :=
  inferInstanceAs (Decidable (_ = _))

/-- The places where the open scopes were opened, after an action that has a place of its own. -/
def opened (places : List Nat) : Action × Nat → List Nat
  | (.openScope _, place) => place :: places
  | (.closeScope scope, _) => places.eraseIdx scope
  | _ => places

/-- The places in a program where it opens the scopes that it does not close, the latest one
first. -/
def openings (program : List Action) : List Nat :=
  program.zipIdx.foldl opened []

def Action.isScope : Action → Bool
  | openScope _ => true
  | closeScope _ => true
  | _ => false

/-- What an action adds to the record while a slide is current. -/
def Action.recorded (least : Severity) (slide : Nat) (action : Action) : List Event :=
  match action.report? with
  | some r => if r.severity < least then [] else [⟨r, slide⟩]
  | none => []

theorem enclosing?_append (first second : List Action) :
    enclosing? (first ++ second) = (enclosing? first).bind (second.foldlM enter ·) := by
  rw [enclosing?, List.foldlM_append]
  rfl

theorem enclosing?_snoc (program : List Action) (action : Action) :
    enclosing? (program ++ [action]) = (enclosing? program).bind (enter · action) := by
  simp [enclosing?_append]

theorem exists_enclosing {before after : List Action} {slides : List Nat}
    (inOrder : enclosing? (before ++ after) = some slides) :
    ∃ outer, enclosing? before = some outer := by
  rw [enclosing?_append] at inOrder
  obtain ⟨outer, known, -⟩ := Option.bind_eq_some_iff.1 inOrder
  exact ⟨outer, known⟩

theorem enter_of_not_isScope (slides : List Nat) (other : action.isScope = false) :
    enter slides action = some slides := by
  cases action <;> first | rfl | cases other

theorem openings_snoc (program : List Action) (action : Action) :
    openings (program ++ [action]) = opened (openings program) (action, program.length) := by
  simp [openings, List.zipIdx_append]

theorem opened_of_not_isScope (places : List Nat) (place : Nat) (other : action.isScope = false) :
    opened places (action, place) = places := by
  cases action <;> first | rfl | cases other

/-! ## Actions -/

/-- All that an action can do to the current slide and to the open scopes. -/
inductive Moved (b : Broadcast) : Action → Broadcast → Prop
  | kept {action : Action} {b' : Broadcast} : action.isScope = false →
      b'.emitter.slide = b.emitter.slide → b'.scopes = b.scopes → Moved b action b'
  | opened {slide : Nat} {b' : Broadcast} : b'.emitter.slide = slide →
      b'.scopes = ⟨b.emitter.slide⟩ :: b.scopes → Moved b (.openScope slide) b'
  | closed {place : Nat} {scope : Emitter.Scope} {b' : Broadcast} : b.scopes[place]? = some scope →
      b'.emitter.slide = scope.previous → b'.scopes = b.scopes.eraseIdx place →
      Moved b (.closeScope place) b'

theorem moved_report {r : Report} (other : action.isScope = false) :
    Moved b action (b.report r) := by
  rw [report]
  split <;> exact .kept other rfl rfl

theorem moved_of_step? (h : b.step? action = some b') : Moved b action b' := by
  rw [step?] at h
  split at h
  · cases action with
    | emit r | emitError area e =>
      cases h
      exact moved_report rfl
    | setMinSeverity s | observe o | clear =>
      cases h
      exact .kept rfl rfl rfl
    | openScope slide =>
      cases h
      exact .opened rfl rfl
    | closeScope place =>
      obtain ⟨scope, found, rfl⟩ := Option.map_eq_some_iff.1 h
      exact .closed found rfl rfl
    | notify =>
      rw [act?, notify?] at h
      split at h
      · cases h
      · split at h <;> (cases h; exact .kept rfl rfl rfl)
  · cases h

/-! ## Closing in order -/

/-- The current slide, and then those that closing the open scopes in order will make current. -/
def slides (b : Broadcast) : List Nat :=
  b.emitter.slide :: b.scopes.map Emitter.Scope.previous

/-- An action does to the slides what the program says that it does to those of its own scopes. -/
theorem Moved.slides_eq (moved : Moved b action b') {own own' outer : List Nat}
    (before : b.slides = own ++ outer) (enters : enter own action = some own') :
    b'.slides = own' ++ outer := by
  cases moved with
  | kept other slide scopes =>
    obtain rfl : own = own' :=
      Option.some.inj ((enter_of_not_isScope own other).symm.trans enters)
    rwa [slides, slide, scopes]
  | opened slide scopes =>
    cases enters
    rw [slides, slide, scopes, List.cons_append, ← before]
    rfl
  | @closed place scope _ found slide scopes =>
    match place, own with
    | 0, _ :: own =>
      cases enters
      have innermost : b.scopes.head? = some scope := by rwa [List.head?_eq_getElem?]
      obtain ⟨rest, all⟩ := List.head?_eq_some_iff.1 innermost
      rw [slides, all] at before
      rw [slides, slide, scopes, all]
      exact (List.cons.inj before).2

/-- The slides of a broadcast are those of the scopes that the program has open, on top of those
that there were before. -/
theorem run?_slides (run : start.run? actions = some b) {own : List Nat}
    (inOrder : enclosing? actions = some own) : b.slides = own ++ start.slides := by
  induction actions using List.reverseRecOn generalizing b own with
  | nil =>
    cases inOrder
    rw [← run?_nil.1 run]
    rfl
  | append_singleton actions action ih =>
    obtain ⟨mid, earlier, last⟩ := run?_snoc.1 run
    rw [enclosing?_snoc] at inOrder
    obtain ⟨outer, known, enters⟩ := Option.bind_eq_some_iff.1 inOrder
    exact (moved_of_step? last).slides_eq (ih earlier known) enters

/-- The current slide is that of the innermost scope, or the one from before the program. -/
theorem run?_slide (run : start.run? actions = some b) {own : List Nat}
    (inOrder : enclosing? actions = some own) :
    b.emitter.slide = own.headD start.emitter.slide := by
  have chain := congrArg List.head? (run?_slides run inOrder)
  cases own <;> exact Option.some.inj chain

/-! ## Recording -/

/-- An event shows the slide of the innermost scope that is open at a report of the program, or the
slide from before the program if none is open. -/
def Inside (outer : Nat) (program : List Action) (e : Event) : Prop :=
  ∃ before action after own, program = before ++ action :: after ∧ enclosing? before = some own ∧
    action.report? = some e.toReport ∧ e.slide = own.headD outer

theorem Inside.snoc {outer : Nat} {e : Event} (h : Inside outer actions e) (action : Action) :
    Inside outer (actions ++ [action]) e := by
  obtain ⟨before, cause, after, own, rfl, known, report, slide⟩ := h
  exact ⟨before, cause, after ++ [action], own, by simp, known, report, slide⟩

theorem step?_eq_report {r : Report} (isReport : action.report? = some r)
    (h : b.step? action = some b') : b' = b.report r := by
  rw [step?] at h
  split at h
  · cases action with
    | emit s | emitError area e =>
      cases isReport
      cases h
      rfl
    | _ => cases isReport
  · cases h

theorem events_report (b : Broadcast) (r : Report) :
    (b.report r).emitter.events = b.emitter.events
      ++ if r.severity < b.emitter.minSeverity then [] else [⟨r, b.emitter.slide⟩] := by
  rw [report]
  split
  · exact (List.append_nil _).symm
  · rfl

/-- An action that clears nothing adds to the record what it records, and nothing else. -/
theorem events_of_step? (h : b.step? action = some b') (notClear : action ≠ .clear) :
    b'.emitter.events
      = b.emitter.events ++ action.recorded b.emitter.minSeverity b.emitter.slide := by
  rw [Action.recorded]
  cases isReport : action.report? with
  | some r => rw [step?_eq_report isReport h, events_report]
  | none =>
    cases recorded_of_step? h with
    | kept _ events _ => rw [events, List.append_nil]
    | added other _ _ _ => cases isReport.symm.trans other
    | cleared => exact absurd rfl notClear

/-- Every event that a program has recorded shows the slide of the innermost scope. -/
theorem run?_inside (run : start.run? actions = some b) {own : List Nat}
    (inOrder : enclosing? actions = some own) {e : Event} (recorded : e ∈ b.emitter.events) :
    e ∈ start.emitter.events ∨ Inside start.emitter.slide actions e := by
  induction actions using List.reverseRecOn generalizing b own with
  | nil =>
    rw [← run?_nil.1 run] at recorded
    exact .inl recorded
  | append_singleton actions action ih =>
    obtain ⟨mid, earlier, last⟩ := run?_snoc.1 run
    obtain ⟨outer, known⟩ := exists_enclosing inOrder
    have older (here : e ∈ mid.emitter.events) :
        e ∈ start.emitter.events ∨ Inside start.emitter.slide (actions ++ [action]) e :=
      (ih earlier known here).imp_right (·.snoc action)
    cases recorded_of_step? last with
    | kept _ events _ => exact older (events ▸ recorded)
    | added isReport _ events _ =>
      rw [events] at recorded
      rcases List.mem_append.1 recorded with here | new
      · exact older here
      · obtain rfl := List.mem_singleton.1 new
        exact .inr ⟨actions, action, [], outer, rfl, known, isReport, run?_slide earlier known⟩
    | cleared events _ =>
      rw [events] at recorded
      cases recorded

/-! ## Closing in any order -/

/-- An open scope of the program keeps the slide that was current when it was opened. -/
theorem run?_opened (run : start.run? actions = some b) {scope place : Nat}
    (known : (openings actions)[scope]? = some place) :
    ∃ slide mid, actions[place]? = some (.openScope slide) ∧
      start.run? (actions.take place) = some mid ∧ b.scopes[scope]? = some ⟨mid.emitter.slide⟩ := by
  induction actions using List.reverseRecOn generalizing b scope with
  | nil => cases known
  | append_singleton actions action ih =>
    obtain ⟨previous, earlier, last⟩ := run?_snoc.1 run
    -- A scope that was there before the last action was opened at the same place.
    have older {scope' : Nat} (there : (openings actions)[scope']? = some place)
        (same : b.scopes[scope]? = previous.scopes[scope']?) :
        ∃ slide mid, (actions ++ [action])[place]? = some (.openScope slide) ∧
          start.run? ((actions ++ [action]).take place) = some mid ∧
          b.scopes[scope]? = some ⟨mid.emitter.slide⟩ := by
      obtain ⟨slide, mid, opening, reached, saved⟩ := ih earlier there
      have inside := (List.getElem?_eq_some_iff.1 opening).1
      rw [List.getElem?_append_left inside, List.take_append_of_le_length (Nat.le_of_lt inside)]
      exact ⟨slide, mid, opening, reached, same.trans saved⟩
    rw [openings_snoc] at known
    cases moved_of_step? last with
    | kept other _ scopes =>
      rw [opened_of_not_isScope _ _ other] at known
      exact older known (by rw [scopes])
    | @opened slide _ _ scopes =>
      cases scope with
      | zero =>
        obtain rfl : actions.length = place := Option.some.inj known
        refine ⟨slide, previous, by simp, ?_, by rw [scopes]; rfl⟩
        rw [List.take_left]
        exact earlier
      | succ scope => exact older known (by rw [scopes]; rfl)
    | @closed gone _ _ _ _ scopes =>
      rw [opened, List.getElem?_eraseIdx] at known
      rw [scopes] at older ⊢
      rw [List.getElem?_eraseIdx] at older ⊢
      split at known
      · next before => exact older known (by rw [if_pos before])
      · next behind => exact older known (by rw [if_neg behind])

theorem step?_closeScope (isOpen : b.isOpen) {place : Nat} {scope : Emitter.Scope}
    (found : b.scopes[place]? = some scope) :
    b.step? (.closeScope place) = some { b with
      emitter := b.emitter.closeScope scope
      scopes := b.scopes.eraseIdx place } := by
  rw [step?, if_pos (show b.allows (.closeScope place) from isOpen), act?, found]
  rfl

/-! ## Programs that can be run -/

/-- The actions are those of a program, with answers of observers after each of them. -/
inductive Answered : List Action → List Action → Prop
  | nil : Answered [] []
  | snoc {program actions answers : List Action} {action : Action} : Answered program actions →
      (∀ answer ∈ answers, answer.IsReaction) →
      Answered (program ++ [action]) (actions ++ action :: answers)

/-- A program of scopes and reports, and of nothing else. -/
def OnlyScopesAndReports (program : List Action) : Prop :=
  ∀ action ∈ program, action.isScope ∨ ∃ r, action = .emit r

theorem Action.IsReaction.not_isScope (reaction : action.IsReaction) : action.isScope = false := by
  obtain rfl | ⟨r, rfl⟩ := reaction <;> rfl

theorem foldlM_enter_reactions {answers : List Action}
    (reactions : ∀ answer ∈ answers, answer.IsReaction) (own : List Nat) :
    answers.foldlM enter own = some own := by
  induction answers with
  | nil => rfl
  | cons answer answers ih =>
    obtain ⟨first, others⟩ := List.forall_mem_cons.1 reactions
    rw [List.foldlM_cons, enter_of_not_isScope own first.not_isScope]
    exact ih others

/-- Observers that answer do not change what a program has open. -/
theorem Answered.enclosing?_eq {program : List Action} (answered : Answered program actions) :
    enclosing? actions = enclosing? program := by
  induction answered with
  | nil => rfl
  | @snoc program actions answers action _ reactions ih =>
    rw [enclosing?_snoc, enclosing?_append, ih]
    refine congrArg _ (funext fun own => ?_)
    rw [List.foldlM_cons]
    cases enter own action with
    | none => rfl
    | some own' => exact foldlM_enter_reactions reactions own'

/-- A scope can be opened, and the innermost scope of the program can be closed. -/
theorem exists_step (isOpen : b.isOpen) (isScope : action.isScope) {own own' outer : List Nat}
    (before : b.slides = own ++ outer) (nonempty : outer ≠ [])
    (enters : enter own action = some own') :
    ∃ b', b.step? action = some b' ∧ b'.isOpen := by
  cases action with
  | openScope slide => exact ⟨_, if_pos isOpen, isOpen⟩
  | closeScope place =>
    match place, own, enters with
    | 0, slide :: own, _ =>
      cases scopes : b.scopes with
      | nil => simp [slides, scopes, nonempty] at before
      | cons scope rest =>
        have innermost : b.scopes[0]? = some scope := by rw [scopes]; rfl
        exact ⟨_, step?_closeScope isOpen innermost, isOpen⟩
  | _ => cases isScope

/-- Whoever can act can go through a program that closes its scopes in order. -/
theorem exists_answered (isOpen : start.isOpen) {program : List Action}
    (only : OnlyScopesAndReports program) {own : List Nat}
    (inOrder : enclosing? program = some own) :
    ∃ actions b, Answered program actions ∧ start.run? actions = some b ∧ b.isOpen := by
  induction program using List.reverseRecOn generalizing own with
  | nil => exact ⟨[], start, .nil, rfl, isOpen⟩
  | append_singleton program action ih =>
    obtain ⟨others, last⟩ := List.forall_mem_append.1 only
    rw [enclosing?_snoc] at inOrder
    obtain ⟨outer, known, enters⟩ := Option.bind_eq_some_iff.1 inOrder
    obtain ⟨actions, mid, answered, run, midOpen⟩ := ih others known
    -- What is left to show is that the last action can be taken, with some answers to it.
    suffices goes : ∃ answers b, (∀ answer ∈ answers, answer.IsReaction) ∧
        mid.run? (action :: answers) = some b ∧ b.isOpen by
      obtain ⟨answers, b, reactions, further, bOpen⟩ := goes
      exact ⟨actions ++ action :: answers, b, answered.snoc reactions,
        run?_append.2 ⟨mid, run, further⟩, bOpen⟩
    rcases List.forall_mem_singleton.1 last with isScope | ⟨r, rfl⟩
    · have chain := run?_slides run (answered.enclosing?_eq.trans known)
      obtain ⟨b, step, bOpen⟩ := exists_step midOpen isScope chain (List.cons_ne_nil _ _) enters
      exact ⟨[], b, nofun, run?_cons.2 ⟨b, step, rfl⟩, bOpen⟩
    · obtain ⟨answers, reactions, further⟩ := emit_reached mid r midOpen
      exact ⟨answers, _, reactions, further, midOpen⟩

/-! ## Nesting -/

/-- What a well-nested program comes to. -/
structure Bracketed (start : Broadcast) (actions : List Action) (b : Broadcast) : Prop where
  restored : b.emitter.slide = start.emitter.slide
  /-- Every action but a clearing adds to the record what it reports, unless that is not serious
  enough, on the slide of the innermost scope that is open at that moment, or on the slide from
  before the program if none is open. -/
  added : ∀ before action after, actions = before ++ action :: after →
    ∃ own mid next, enclosing? before = some own ∧ start.run? before = some mid ∧
      mid.step? action = some next ∧ (action ≠ .clear → next.emitter.events
        = mid.emitter.events ++ action.recorded mid.emitter.minSeverity
            (own.headD start.emitter.slide))
  inside : ∀ e ∈ b.emitter.events,
    e ∈ start.emitter.events ∨ Inside start.emitter.slide actions e

theorem run?_bracketed (run : start.run? actions = some b) (nested : WellNested actions) :
    Bracketed start actions b := by
  refine ⟨run?_slide run nested, ?_, fun _ => run?_inside run nested⟩
  rintro before action after rfl
  obtain ⟨own, known⟩ := exists_enclosing nested
  obtain ⟨mid, earlier, rest⟩ := run?_append.1 run
  obtain ⟨next, step, -⟩ := run?_cons.1 rest
  refine ⟨own, mid, next, known, earlier, step, fun notClear => ?_⟩
  rw [events_of_step? step notClear, run?_slide earlier known]

/-- **Scopes nest.**  In a well-nested program, whatever observers do in the middle of it, each
event is recorded on the slide of the innermost scope that is open, or on the slide from before the
program if none is, and in the end that slide is current again.  In whatever order a program has
closed scopes, each scope that it has still open can be closed next, and that makes current the
slide that was so when this very scope was opened.  Wherever somebody can act, any well-nested
program of scopes and reports can be gone through. -/
theorem run?_nested (run : start.run? actions = some b) :
    (WellNested actions → Bracketed start actions b) ∧
      (∀ scope place, (openings actions)[scope]? = some place →
        ∃ slide mid, actions[place]? = some (.openScope slide) ∧
          start.run? (actions.take place) = some mid ∧
          (b.isOpen → ∃ b', b.step? (.closeScope scope) = some b' ∧
            b'.emitter = { b.emitter with slide := mid.emitter.slide })) ∧
      ∀ program, WellNested program → OnlyScopesAndReports program → b.isOpen →
        ∃ answered b', Answered program answered ∧ WellNested answered ∧
          b.run? answered = some b' := by
  refine ⟨run?_bracketed run, ?_, ?_⟩
  · intro scope place known
    obtain ⟨slide, mid, opening, reached, saved⟩ := run?_opened run known
    exact ⟨slide, mid, opening, reached, fun isOpen => ⟨_, step?_closeScope isOpen saved, rfl⟩⟩
  · intro program nested only isOpen
    obtain ⟨answered, b', isAnswered, further, -⟩ := exists_answered isOpen only nested
    exact ⟨answered, b', isAnswered, isAnswered.enclosing?_eq.trans nested, further⟩

/-- An emitter that leaves information out, in the middle of work on a slide. -/
def onSeventh : Broadcast :=
  { emitter := { slide := 7, minSeverity := .warning } }

/-- A report that nobody sees. -/
def unseen (s : Severity) : List Action :=
  [.emit { severity := s, area := [], stage := [], message := [] }, .notify]

/-- Warnings in and between two scopes, with information that is left out in the inner one. -/
def bracketing : List Action :=
  .openScope 1 :: unseen .warning
    ++ .openScope 2 :: .emit { area := [], stage := [], message := [] } :: unseen .warning
    ++ .closeScope 0 :: unseen .warning ++ .closeScope 0 :: unseen .warning

/-- The scopes are closed in order, and if the outer one were closed first, that would lead back to
the slide from before it as well. -/
theorem bracketing_nested :
    (∃ b, onSeventh.run? bracketing = some b ∧ b.emitter.events.map Event.slide = [1, 2, 1, 7] ∧
      Bracketed onSeventh bracketing b) ∧
      ∃ b, onSeventh.run? [.openScope 1, .openScope 2] = some b ∧
        ∃ b', b.step? (.closeScope 1) = some b' ∧ b'.emitter.slide = 7 := by
  constructor
  · have state : (onSeventh.run? bracketing).map (fun b => b.emitter.events.map Event.slide)
        = some [1, 2, 1, 7] := by
      decide +kernel
    obtain ⟨b, run, slides⟩ := Option.map_eq_some_iff.1 state
    exact ⟨b, run, slides, (run?_nested run).1 (by decide +kernel)⟩
  · have run : onSeventh.run? [.openScope 1, .openScope 2] = some _ := rfl
    obtain ⟨-, mid, -, before, closes⟩ := (run?_nested run).2.1 1 0 rfl
    obtain ⟨b', step, emitter⟩ := closes rfl
    refine ⟨_, run, b', step, ?_⟩
    cases before
    rw [emitter]
    rfl

end SlideDeck.Broadcast
