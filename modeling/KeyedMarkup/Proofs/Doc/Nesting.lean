import Mathlib.Data.List.Forall2
import KeyedMarkup.Doc.Builder

/-!
# Nested events

Events are balanced if everything that starts in them stops in them and nothing else does. Such
events are a sequence of leaves and of pairs with balanced events between, and a builder that runs
through them comes back to the nodes that were open before. It has added to the innermost of these
only; what lies further out can get a check mark, from a task marker that comes where no list item
is open in between, and is otherwise left alone.
-/

namespace KeyedMarkup.Doc

/-! ## Balanced events -/

namespace Event

def isStart : Event → Bool
  | .start _ => true
  | _ => false

def isStop : Event → Bool
  | .stop => true
  | _ => false

/-- Whether an event stands for itself, neither starting nor stopping anything. -/
def isLeaf (e : Event) : Bool := !e.isStart && !e.isStop

theorem start_or_stop_or_isLeaf (e : Event) :
    (∃ tag, e = .start tag) ∨ e = .stop ∨ e.isLeaf = true := by
  cases e with
  | start tag => exact .inl ⟨tag, rfl⟩
  | stop => exact .inr (.inl rfl)
  | _ => exact .inr (.inr rfl)

end Event

def starts (events : List Event) : Nat := events.countP Event.isStart

def stops (events : List Event) : Nat := events.countP Event.isStop

/-- Whether the events stop all that starts in them and as many constructs that were open before
as are given, and at no time more than are open. -/
structure Closes (pending : Nat) (events : List Event) : Prop where
  sane : ∀ front, front <+: events → stops front ≤ starts front + pending
  settled : stops events = starts events + pending

/-- Whether the events stop all that starts in them and nothing else. -/
def Balanced (events : List Event) : Prop := Closes 0 events

theorem starts_cons (e : Event) (events : List Event) :
    starts (e :: events) = starts [e] + starts events := by
  simp [starts, List.countP_cons, Nat.add_comm]

theorem stops_cons (e : Event) (events : List Event) :
    stops (e :: events) = stops [e] + stops events := by
  simp [stops, List.countP_cons, Nat.add_comm]

/-- What is pending before an event and what is pending after it. -/
theorem closes_cons {e : Event} {events : List Event} {pending after : Nat}
    (h : starts [e] + pending = stops [e] + after) :
    Closes pending (e :: events) ↔ Closes after events := by
  constructor
  · intro hcloses
    constructor
    · intro front hfront
      have hsane := hcloses.sane (e :: front) ((List.prefix_cons_inj e).mpr hfront)
      rw [starts_cons, stops_cons] at hsane
      omega
    · have hsettled := hcloses.settled
      rw [starts_cons, stops_cons] at hsettled
      omega
  · intro hcloses
    constructor
    · intro front hfront
      rcases List.prefix_cons_iff.mp hfront with rfl | ⟨tail, rfl, htail⟩
      · exact Nat.zero_le _
      · have hsane := hcloses.sane tail htail
        rw [starts_cons, stops_cons]
        omega
    · have hsettled := hcloses.settled
      rw [starts_cons, stops_cons]
      omega

theorem closes_start (tag : Tag) (events : List Event) (pending : Nat) :
    Closes pending (.start tag :: events) ↔ Closes (pending + 1) events :=
  closes_cons (show 1 + pending = 0 + (pending + 1) by omega)

theorem closes_stop (events : List Event) (pending : Nat) :
    Closes (pending + 1) (.stop :: events) ↔ Closes pending events :=
  closes_cons (show 0 + (pending + 1) = 1 + pending by omega)

theorem closes_leaf {e : Event} (he : e.isLeaf = true) (events : List Event) (pending : Nat) :
    Closes pending (e :: events) ↔ Closes pending events := by
  apply closes_cons
  simp only [Event.isLeaf, Bool.and_eq_true, Bool.not_eq_true'] at he
  simp [starts, stops, he]

theorem closes_nil : Closes 0 [] := by
  constructor
  · intro front hfront
    rw [List.prefix_nil.mp hfront]
    exact Nat.le_refl 0
  · rfl

theorem not_closes_stop (events : List Event) : ¬Closes 0 (.stop :: events) := by
  intro h
  have hsane := h.sane [.stop] (List.prefix_append [.stop] events)
  exact absurd hsane (by decide)

/-- Leaves and pairs, one after the other, with events of the same form between a start and its
stop. -/
inductive Nested : List Event → Prop where
  | nil : Nested []
  | leaf {e : Event} {rest : List Event} (he : e.isLeaf = true) (hrest : Nested rest) :
      Nested (e :: rest)
  | pair (tag : Tag) {body rest : List Event} (hbody : Nested body) (hrest : Nested rest) :
      Nested (.start tag :: body ++ .stop :: rest)

/-- Nested events, and for each construct that was open before its stop and more nested events. -/
def Unwinds : Nat → List Event → Prop
  | 0, events => Nested events
  | pending + 1, events =>
      ∃ body rest, events = body ++ .stop :: rest ∧ Nested body ∧ Unwinds pending rest

theorem Unwinds.leaf {e : Event} (he : e.isLeaf = true) {events : List Event} {pending : Nat}
    (h : Unwinds pending events) : Unwinds pending (e :: events) := by
  cases pending with
  | zero => exact Nested.leaf he h
  | succ pending =>
      obtain ⟨body, rest, rfl, hbody, hrest⟩ := h
      exact ⟨e :: body, rest, rfl, Nested.leaf he hbody, hrest⟩

theorem Unwinds.start (tag : Tag) {events : List Event} {pending : Nat}
    (h : Unwinds (pending + 1) events) : Unwinds pending (.start tag :: events) := by
  obtain ⟨body, rest, rfl, hbody, hrest⟩ := h
  cases pending with
  | zero => exact Nested.pair tag hbody hrest
  | succ pending =>
      -- The first stop belongs to the tag, the next one to a construct that was open before.
      obtain ⟨body', rest, rfl, hbody', hrest⟩ := hrest
      refine ⟨.start tag :: body ++ .stop :: body', rest, ?_, Nested.pair tag hbody hbody', hrest⟩
      simp

theorem unwinds_of_closes {events : List Event} {pending : Nat} (h : Closes pending events) :
    Unwinds pending events := by
  induction events generalizing pending with
  | nil =>
      have hpending : pending = 0 := by
        have hsettled := h.settled
        simp only [starts, stops, List.countP_nil] at hsettled
        omega
      rw [hpending]
      exact Nested.nil
  | cons e events ih =>
      rcases e.start_or_stop_or_isLeaf with ⟨tag, rfl⟩ | rfl | he
      · exact Unwinds.start tag (ih ((closes_start tag events pending).mp h))
      · cases pending with
        | zero => exact absurd h (not_closes_stop events)
        | succ pending => exact ⟨[], events, rfl, .nil, ih ((closes_stop events pending).mp h)⟩
      · exact Unwinds.leaf he (ih ((closes_leaf he events pending).mp h))

theorem Balanced.nested {events : List Event} (h : Balanced events) : Nested events :=
  unwinds_of_closes h

/-- The events without the stops that have nothing to stop, and with those at the end that are
missing, given how many constructs are open before. -/
def matched : Nat → List Event → List Event
  | pending, [] => List.replicate pending .stop
  | pending, .start tag :: rest => .start tag :: matched (pending + 1) rest
  | 0, .stop :: rest => matched 0 rest
  | pending + 1, .stop :: rest => .stop :: matched pending rest
  | pending, e :: rest => e :: matched pending rest

theorem matched_leaf {e : Event} (he : e.isLeaf = true)
    (pending : Nat) (events : List Event) :
    matched pending (e :: events) = e :: matched pending events := by
  cases e with
  | start tag => cases he
  | stop => cases he
  | _ => rfl

theorem closes_stops (pending : Nat) : Closes pending (List.replicate pending .stop) := by
  induction pending with
  | zero => exact closes_nil
  | succ pending ih => exact (closes_stop _ pending).mpr ih

theorem closes_matched (pending : Nat) (events : List Event) :
    Closes pending (matched pending events) := by
  induction events generalizing pending with
  | nil => exact closes_stops pending
  | cons e events ih =>
      rcases e.start_or_stop_or_isLeaf with ⟨tag, rfl⟩ | rfl | he
      · exact (closes_start tag _ pending).mpr (ih (pending + 1))
      · cases pending with
        | zero => exact ih 0
        | succ pending => exact (closes_stop _ pending).mpr (ih pending)
      · rw [matched_leaf he]
        exact (closes_leaf he _ pending).mpr (ih pending)

example : matched 0 [.stop, .start .emphasis, .text "a", .start .strong] =
    [.start .emphasis, .text "a", .start .strong, .stop, .stop] := rfl

/-! ## Marks that go further out -/

/-- The marks of the task markers that come where no list item is open, given the kinds of the
constructs that are open before the events, innermost first. -/
def strayMarks : List Kind → List Event → List Bool
  | _, [] => []
  | kinds, .start tag :: rest => strayMarks (tag.kind :: kinds) rest
  | kinds, .stop :: rest => strayMarks kinds.tail rest
  | kinds, .task checked :: rest =>
      if .listItem ∈ kinds then strayMarks kinds rest else checked :: strayMarks kinds rest
  | kinds, _ :: rest => strayMarks kinds rest

theorem strayMarks_cons {e : Event} (he : e.isLeaf = true)
    (kinds : List Kind) (rest : List Event) :
    strayMarks kinds (e :: rest) = strayMarks kinds [e] ++ strayMarks kinds rest := by
  cases e with
  | start tag => cases he
  | stop => cases he
  | task checked => by_cases hitem : .listItem ∈ kinds <;> simp [strayMarks, hitem]
  | _ => simp [strayMarks]

theorem strayMarks_append {events : List Event} (h : Nested events) (kinds : List Kind)
    (rest : List Event) :
    strayMarks kinds (events ++ rest) = strayMarks kinds events ++ strayMarks kinds rest := by
  induction h generalizing kinds rest with
  | nil => rfl
  | @leaf e events he _ ih =>
      calc
        strayMarks kinds (e :: events ++ rest)
        _ = strayMarks kinds [e] ++ (strayMarks kinds events ++ strayMarks kinds rest) := by
          rw [List.cons_append, strayMarks_cons he, ih]
        _ = strayMarks kinds (e :: events) ++ strayMarks kinds rest := by
          rw [strayMarks_cons he kinds events, List.append_assoc]
  | @pair tag body events _ _ ihbody ihrest =>
      simp [strayMarks, ihbody, ihrest]

theorem strayMarks_pair (tag : Tag) {body : List Event} (h : Nested body) (kinds : List Kind)
    (rest : List Event) :
    strayMarks kinds (.start tag :: body ++ .stop :: rest) =
      strayMarks (tag.kind :: kinds) body ++ strayMarks kinds rest := by
  rw [List.cons_append, strayMarks, strayMarks_append h, strayMarks, List.tail_cons]

/-! ## Frames -/

namespace OpenNode

theorem kind_close (o : OpenNode) : o.close.kind = o.kind := by
  unfold close
  split <;> rfl

theorem kind_addText (o : OpenNode) (s : String) : (o.addText s).kind = o.kind := by
  unfold addText
  split
  · rfl
  · split <;> rfl

theorem kind_addHtml (o : OpenNode) (s : String) : (o.addHtml s).kind = o.kind := by
  unfold addHtml
  split <;> rfl

/-- Whether a node is as it was before, or is a list item that got one of some check marks. -/
def MarkedBy (marks : List Bool) (before after : OpenNode) : Prop :=
  after = before ∨ before.kind = .listItem ∧ ∃ checked ∈ marks,
    after = { before with properties := before.properties.insert "checked" (.flag checked) }

theorem MarkedBy.mark {marks : List Bool} {before after : OpenNode}
    (h : MarkedBy marks before after) (hitem : after.kind = .listItem) {checked : Bool}
    (hmem : checked ∈ marks) : MarkedBy marks before
      { after with properties := after.properties.insert "checked" (.flag checked) } := by
  rcases h with rfl | ⟨hbefore, checked', _, rfl⟩
  · exact .inr ⟨hitem, checked, hmem, rfl⟩
  · refine .inr ⟨hbefore, checked, hmem, ?_⟩
    rw [Dict.insert_insert]

theorem MarkedBy.add {marks : List Bool} {o o' : OpenNode} (h : MarkedBy marks o o') (n : Node) :
    MarkedBy marks (o.add n) (o'.add n) := by
  rcases h with rfl | ⟨hitem, checked, hmem, rfl⟩
  · exact .inl rfl
  · exact .inr ⟨hitem, checked, hmem, rfl⟩

end OpenNode

namespace Builder

/-- The open nodes, innermost first. -/
def stack (b : Builder) : List OpenNode := b.top :: b.below

def kinds (os : List OpenNode) : List Kind := os.map (·.kind)

theorem ne_nil_of_kinds_eq {os os' : List OpenNode} (h : kinds os' = kinds os) (hne : os ≠ []) :
    os' ≠ [] := by
  rintro rfl
  exact hne (List.map_eq_nil_iff.mp h.symm)

theorem kinds_mark (checked : Bool) (os : List OpenNode) : kinds (mark checked os) = kinds os := by
  induction os with
  | nil => rfl
  | cons o os ih =>
      rw [mark]
      split
      · rfl
      · simpa [kinds] using ih

theorem mark_append_of_mem {checked : Bool} {inner : List OpenNode} (h : .listItem ∈ kinds inner)
    (outer : List OpenNode) : mark checked (inner ++ outer) = mark checked inner ++ outer := by
  induction inner with
  | nil => exact absurd h List.not_mem_nil
  | cons o inner ih =>
      rw [List.cons_append, mark, mark]
      split
      next => rfl
      next hother =>
        have hinner : .listItem ∈ kinds inner :=
          (List.mem_cons.mp h).resolve_left fun heq => hother heq.symm
        rw [ih hinner, List.cons_append]

theorem mark_append_of_not_mem {checked : Bool} {inner : List OpenNode}
    (h : .listItem ∉ kinds inner) (outer : List OpenNode) :
    mark checked (inner ++ outer) = inner ++ mark checked outer := by
  induction inner with
  | nil => rfl
  | cons o inner ih =>
      obtain ⟨hother, hinner⟩ := not_or.mp fun hmem => h (List.mem_cons.mpr hmem)
      rw [List.cons_append, mark, if_neg fun heq => hother heq.symm, ih hinner, List.cons_append]

theorem markedBy_mark {marks : List Bool} {checked : Bool} (hmem : checked ∈ marks)
    {os os' : List OpenNode} (h : List.Forall₂ (OpenNode.MarkedBy marks) os os') :
    List.Forall₂ (OpenNode.MarkedBy marks) os (mark checked os') := by
  induction h with
  | nil => exact .nil
  | cons ho hos ih =>
      rw [mark]
      split
      next hitem => exact .cons (ho.mark hitem hmem) hos
      next => exact .cons ho ih

def markAll (marks : List Bool) (os : List OpenNode) : List OpenNode :=
  marks.foldl (fun os checked => mark checked os) os

theorem markAll_append (marks marks' : List Bool) (os : List OpenNode) :
    markAll (marks ++ marks') os = markAll marks' (markAll marks os) := List.foldl_append

theorem markedBy_markAll {all marks : List Bool} (hmem : ∀ checked ∈ marks, checked ∈ all)
    {os os' : List OpenNode} (h : List.Forall₂ (OpenNode.MarkedBy all) os os') :
    List.Forall₂ (OpenNode.MarkedBy all) os (markAll marks os') := by
  induction marks generalizing os' with
  | nil => exact h
  | cons checked marks ih =>
      rw [List.forall_mem_cons] at hmem
      exact ih hmem.2 (markedBy_mark hmem.1 h)

theorem stack_task (b : Builder) (checked : Bool) :
    (b.task checked).stack = mark checked b.stack := by
  have hmark : ∃ top below, mark checked b.stack = top :: below := by
    rw [stack, mark]
    split
    · exact ⟨_, _, rfl⟩
    · exact ⟨_, _, rfl⟩
  obtain ⟨top, below, hmark⟩ := hmark
  rw [task, ← stack, hmark]
  rfl

/-- A leaf that is no task marker acts on the innermost node only. -/
theorem step_eq_of_leaf {e : Event} (he : e.isLeaf = true)
    (htask : ∀ checked, e ≠ .task checked) (b : Builder) :
    ∃ top, b.step e = { b with top } ∧ top.kind = b.top.kind := by
  cases e with
  | start tag => cases he
  | stop => cases he
  | task checked => exact absurd rfl (htask checked)
  | text s => exact ⟨_, rfl, OpenNode.kind_addText b.top s⟩
  | softBreak => exact ⟨_, rfl, OpenNode.kind_addText b.top "\n"⟩
  | html s => exact ⟨_, rfl, OpenNode.kind_addHtml b.top s⟩
  | inlineHtml s => exact ⟨_, rfl, OpenNode.kind_addHtml b.top s⟩
  | _ => exact ⟨_, rfl, rfl⟩

theorem stack_step_task {b : Builder} {inner outer : List OpenNode}
    (hstack : b.stack = inner ++ outer) (checked : Bool) :
    ∃ inner', (b.step (.task checked)).stack =
        inner' ++ markAll (strayMarks (kinds inner) [.task checked]) outer ∧
      kinds inner' = kinds inner := by
  have hstep : (b.step (.task checked)).stack = mark checked (inner ++ outer) := by
    rw [← hstack]
    exact stack_task b checked
  by_cases hitem : .listItem ∈ kinds inner
  · refine ⟨mark checked inner, ?_, kinds_mark checked inner⟩
    rw [hstep, mark_append_of_mem hitem, strayMarks, if_pos hitem]
    rfl
  · refine ⟨inner, ?_, rfl⟩
    rw [hstep, mark_append_of_not_mem hitem, strayMarks, if_neg hitem]
    rfl

theorem stack_step_leaf {e : Event} (he : e.isLeaf = true) {b : Builder}
    {inner outer : List OpenNode} (hstack : b.stack = inner ++ outer) (hinner : inner ≠ []) :
    ∃ inner', (b.step e).stack = inner' ++ markAll (strayMarks (kinds inner) [e]) outer ∧
      kinds inner' = kinds inner := by
  by_cases htask : ∃ checked, e = .task checked
  · obtain ⟨checked, rfl⟩ := htask
    exact stack_step_task hstack checked
  · rw [not_exists] at htask
    obtain ⟨top, hstep, hkind⟩ := step_eq_of_leaf he htask b
    obtain ⟨o, inner, rfl⟩ := List.exists_cons_of_ne_nil hinner
    obtain ⟨rfl, hbelow⟩ := List.cons.inj hstack
    have hmarks : strayMarks (kinds (b.top :: inner)) [e] = [] := by
      cases e with
      | task checked => exact absurd rfl (htask checked)
      | _ => rfl
    refine ⟨top :: inner, ?_, ?_⟩
    · rw [hstep, hmarks]
      show top :: b.below = _
      rw [hbelow]
      rfl
    · simp [kinds, hkind]

theorem stack_stop {b : Builder} {o outer : OpenNode} {rest : List OpenNode}
    (h : b.stack = o :: outer :: rest) : b.stop.stack = outer.add o.close :: rest := by
  obtain ⟨rfl, hbelow⟩ := List.cons.inj h
  unfold stop
  rw [hbelow]
  rfl

theorem run_cons (b : Builder) (e : Event) (events : List Event) :
    b.run (e :: events) = (b.step e).run events := rfl

theorem run_append (b : Builder) (events events' : List Event) :
    b.run (events ++ events') = (b.run events).run events' := List.foldl_append

theorem run_pair (b : Builder) (tag : Tag) (body rest : List Event) :
    b.run (.start tag :: body ++ .stop :: rest) =
      (((b.openTag tag).run body).stop).run rest := by
  rw [List.cons_append, run_cons, run_append, run_cons]
  rfl

/-- Whether some events, however the open nodes are split, leave the kinds of the inner ones as they
are and do nothing to the outer ones but set the marks that stray so far. -/
def Frames (events : List Event) : Prop :=
  ∀ (b : Builder) (inner outer : List OpenNode), b.stack = inner ++ outer → inner ≠ [] →
    ∃ inner', (b.run events).stack = inner' ++ markAll (strayMarks (kinds inner) events) outer ∧
      kinds inner' = kinds inner

theorem Frames.leaf {e : Event} (he : e.isLeaf = true) {rest : List Event} (h : Frames rest) :
    Frames (e :: rest) := by
  intro b inner outer hstack hinner
  obtain ⟨inner', hstep, hkinds⟩ := stack_step_leaf he hstack hinner
  have hinner' : inner' ≠ [] := ne_nil_of_kinds_eq hkinds hinner
  obtain ⟨inner'', hrun, hkinds'⟩ := h (b.step e) inner' _ hstep hinner'
  refine ⟨inner'', ?_, hkinds'.trans hkinds⟩
  rw [run_cons, hrun, hkinds, ← markAll_append, ← strayMarks_cons he]

/-- What is opened is innermost until it is closed and added to the node that was. -/
theorem Frames.enclosed {body : List Event} (h : Frames body) (tag : Tag) {b : Builder}
    {inner outer : List OpenNode} (hstack : b.stack = inner ++ outer) (hinner : inner ≠ []) :
    ∃ inner', ((b.openTag tag).run body).stop.stack =
        inner' ++ markAll (strayMarks (tag.kind :: kinds inner) body) outer ∧
      kinds inner' = kinds inner := by
  have hopen : (b.openTag tag).stack = ((b.openTag tag).top :: inner) ++ outer := by
    rw [List.cons_append, ← hstack]
    rfl
  obtain ⟨opened, hrun, hkinds⟩ := h (b.openTag tag) _ outer hopen (List.cons_ne_nil _ _)
  obtain ⟨o, inner', rfl, _, hinner'⟩ := List.map_eq_cons_iff.mp hkinds
  obtain ⟨i, rest, rfl⟩ : ∃ i rest, inner = i :: rest := List.exists_cons_of_ne_nil hinner
  obtain ⟨i', rest', rfl, hkind, hrest⟩ := List.map_eq_cons_iff.mp hinner'
  refine ⟨i'.add o.close :: rest', stack_stop hrun, ?_⟩
  exact congrArg₂ List.cons hkind hrest

theorem Frames.pair {body rest : List Event} (hnested : Nested body) (hbody : Frames body)
    (hrest : Frames rest) (tag : Tag) : Frames (.start tag :: body ++ .stop :: rest) := by
  intro b inner outer hstack hinner
  obtain ⟨inner', hstop, hkinds⟩ := hbody.enclosed tag hstack hinner
  have hinner' : inner' ≠ [] := ne_nil_of_kinds_eq hkinds hinner
  obtain ⟨inner'', hrun, hkinds'⟩ := hrest _ inner' _ hstop hinner'
  refine ⟨inner'', ?_, hkinds'.trans hkinds⟩
  rw [hkinds] at hrun
  rw [strayMarks_pair tag hnested, markAll_append, ← hrun, run_pair]

theorem frames_of_nested {events : List Event} (h : Nested events) : Frames events := by
  induction h with
  | nil => exact fun b inner outer hstack _ => ⟨inner, hstack, rfl⟩
  | leaf he _ ih => exact ih.leaf he
  | pair tag hbody _ ihbody ihrest => exact .pair hbody ihbody ihrest tag

/-- A pair with balanced events between puts one finished node of the kind of its tag after the
children of the innermost node. No open node changes otherwise but for the check marks that come
from within. -/
theorem stack_run_pair (b : Builder) (tag : Tag) {body : List Event} (h : Balanced body) :
    let after := b.run (.start tag :: body ++ [.stop])
    after.stack.length = b.stack.length ∧
      ∃ child : Node, child.kind = tag.kind ∧
        List.Forall₂ (OpenNode.MarkedBy (strayMarks [tag.kind] body))
          ({ b.top with latest := child :: b.top.latest } :: b.below) after.stack := by
  have hopen : (b.step (.start tag)).stack = [(b.step (.start tag)).top] ++ b.stack := rfl
  obtain ⟨inner, hrun, hkinds⟩ := frames_of_nested h.nested _ _ _ hopen (List.cons_ne_nil _ _)
  obtain ⟨o, rfl⟩ : ∃ o, inner = [o] := by
    apply List.length_eq_one_iff.mp
    simpa [kinds] using congrArg List.length hkinds
  have hkind : o.kind = tag.kind := (List.cons.inj hkinds).1
  have hmarked : List.Forall₂ (OpenNode.MarkedBy (strayMarks [tag.kind] body)) b.stack
      (markAll (strayMarks [tag.kind] body) b.stack) :=
    markedBy_markAll (fun _ hmem => hmem) (List.forall₂_same.mpr fun _ _ => .inl rfl)
  obtain ⟨top, below, htop, hbelow, hmarks⟩ := List.forall₂_cons_left_iff.mp hmarked
  have hafter : (b.run (.start tag :: body ++ [.stop])).stack = top.add o.close :: below := by
    rw [List.cons_append, run_cons, run_append]
    apply stack_stop
    rw [← hmarks]
    exact hrun
  have hforall := List.Forall₂.cons (htop.add o.close) hbelow
  rw [← hafter] at hforall
  exact ⟨hforall.length_eq.symm, o.close, (OpenNode.kind_close o).trans hkind, hforall⟩

def openedItem : Builder :=
  start.run [.start (.list none), .start .item, .text "a", .start .paragraph, .text "b"]

/-- A marker for the list item, then an item of its own with a marker. -/
def markedBody : List Event :=
  [.task true, .start (.list none), .start .item, .task false, .stop, .stop, .softBreak]

theorem stack_run_pair_markedBody :
    Balanced markedBody ∧ strayMarks [.emphasis] markedBody = [true] ∧
      (∃ child : Node, child.kind = .emphasis ∧
        List.Forall₂ (OpenNode.MarkedBy [true])
          ({ openedItem.top with latest := child :: openedItem.top.latest } :: openedItem.below)
          (openedItem.run (.start .emphasis :: markedBody ++ [.stop])).stack) ∧
      (openedItem.run (.start .emphasis :: markedBody ++ [.stop])).stack.map
        (·.properties.get? "checked") = [none, some (.flag true), none, none] := by
  have hbalanced : Balanced markedBody := by
    apply (closes_leaf rfl _ 0).mpr
    apply (closes_start _ _ 0).mpr
    apply (closes_start _ _ 1).mpr
    apply (closes_leaf rfl _ 2).mpr
    apply (closes_stop _ 1).mpr
    apply (closes_stop _ 0).mpr
    exact (closes_leaf rfl _ 0).mpr closes_nil
  have hmarks : strayMarks [.emphasis] markedBody = [true] := by decide
  obtain ⟨_, child, hchild, hstack⟩ := stack_run_pair openedItem .emphasis hbalanced
  rw [show Tag.emphasis.kind = .emphasis from rfl, hmarks] at hstack
  exact ⟨hbalanced, hmarks, ⟨child, hchild, hstack⟩, by decide⟩

/-! ## Unbalanced events -/

theorem kinds_step_leaf {e : Event} (he : e.isLeaf = true)
    (b : Builder) : kinds (b.step e).stack = kinds b.stack := by
  obtain ⟨inner, hstack, hkinds⟩ :=
    stack_step_leaf he (List.append_nil b.stack).symm (List.cons_ne_nil _ _)
  have hnothing (marks : List Bool) : markAll marks [] = [] := by
    induction marks with
    | nil => rfl
    | cons checked marks ih => exact ih
  rw [hstack, hnothing, List.append_nil, hkinds]

theorem length_below_step_leaf {e : Event} (he : e.isLeaf = true)
    (b : Builder) : (b.step e).below.length = b.below.length := by
  have hlength := congrArg List.length (kinds_step_leaf he b)
  simpa [kinds, stack] using hlength

theorem finish_stop (b : Builder) : b.stop.finish = b.finish := by
  obtain ⟨top, below, columns⟩ := b
  cases below with
  | nil => rfl
  | cons outer below => rfl

theorem finish_run_stops (b : Builder) (count : Nat) :
    (b.run (List.replicate count .stop)).finish = b.finish := by
  induction count generalizing b with
  | zero => rfl
  | succ count ih =>
      rw [List.replicate_succ, run_cons]
      exact (ih b.stop).trans (finish_stop b)

/-- A builder makes of all events what it makes of the matched ones. -/
theorem finish_run_matched (b : Builder) (events : List Event) :
    (b.run (matched b.below.length events)).finish = (b.run events).finish := by
  induction events generalizing b with
  | nil => exact finish_run_stops b b.below.length
  | cons e events ih =>
      rcases e.start_or_stop_or_isLeaf with ⟨tag, rfl⟩ | rfl | he
      · exact ih (b.openTag tag)
      · obtain ⟨top, below, columns⟩ := b
        cases below with
        | nil => exact ih ⟨top, [], columns⟩
        | cons outer below => exact ih (stop ⟨top, outer :: below, columns⟩)
      · have hstep := ih (b.step e)
        rw [length_below_step_leaf he] at hstep
        rw [matched_leaf he]
        exact hstep

end Builder
end KeyedMarkup.Doc
