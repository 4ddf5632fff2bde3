import Mathlib.Data.List.Forall2
import KeyedMarkup.Proofs.Render.Order

/-!
# Calls of components

A component is called for every node that it is registered for, once and after the components for
the nodes below, with the key of the position, what the node is, and the renderings of its children.
A rendering that fails has called the same components up to the failure.
-/

namespace KeyedMarkup.Render

variable (o : Options)

namespace Placement

def calls (m : Placement) : List Call :=
  match o.components.override? m.node with
  | some found => [⟨found.1, m.input o⟩]
  | none => []

/-- The element that is made for a placed node without a component. -/
def ownCreations (m : Placement) : List Keyed.Creation :=
  match m.node with
  | .text _ | .raw _ => []
  | n => [⟨(tagOf n).getD containerTag, ⟨some (keyAt o.keyPrefix m.position), n.properties⟩,
      m.content⟩]

def creations (m : Placement) : List Keyed.Creation :=
  match o.components.override? m.node with
  | some found => (found.2 (m.input o)).creations
  | none => m.ownCreations o

end Placement

/-- Whether a walk notes between two points what comes of placing some nodes. -/
structure Walk.Notes (before : Walk) (ms : List Placement) (after : Walk) : Prop where
  calls : after.calls.toList = before.calls.toList ++ ms.flatMap (·.calls o)
  creations : after.creations.toList = before.creations.toList ++ ms.flatMap (·.creations o)

variable {o}

theorem Walk.Notes.nil (w : Walk) : w.Notes o [] w where
  calls := (List.append_nil _).symm
  creations := (List.append_nil _).symm

theorem Walk.Notes.append {w w' w'' : Walk} {ms ms' : List Placement} (h : w.Notes o ms w')
    (h' : w'.Notes o ms' w'') : w.Notes o (ms ++ ms') w'' where
  calls := by rw [h'.calls, h.calls, List.flatMap_append, List.append_assoc]
  creations := by rw [h'.creations, h.creations, List.flatMap_append, List.append_assoc]

variable (o)

theorem calls_of_override? {m : Placement} {found : Target × Component}
    (h : o.components.override? m.node = some found) :
    m.calls o = [⟨found.1, m.input o⟩] := by
  rw [Placement.calls, h]

theorem notes_place_builtIn (w : Walk) (m : Placement)
    (hkey : w.trail.key = keyAt o.keyPrefix m.position)
    (h : o.components.override? m.node = none) :
    w.Notes o [m] (w.place o m.node m.node.properties m.content).2 := by
  have hcalls : [m].flatMap (·.calls o) = [] := by simp [Placement.calls, h]
  have hcreations : [m].flatMap (·.creations o) = m.ownCreations o := by
    simp [Placement.creations, h]
  unfold Walk.place
  rw [Registry.resolve_eq, h]
  obtain ⟨p, n, content⟩ := m
  cases n with
  | root children => constructor <;> simp [Walk.create, hcalls, hcreations, hkey,
      Placement.ownCreations, Registry.builtIn]
  | text value => constructor <;> simp [hcalls, hcreations, Placement.ownCreations,
      Registry.builtIn]
  | raw value => constructor <;> simp [hcalls, hcreations, Placement.ownCreations,
      Registry.builtIn]
  | element e =>
      rcases Registry.builtIn_element (γ := Component) e with hbuiltIn | hbuiltIn
      · constructor <;> simp [Walk.create, hcalls, hcreations, hkey, Placement.ownCreations,
          hbuiltIn]
      · constructor <;> simp [Walk.create, hcalls, hcreations, hkey, Placement.ownCreations,
          hbuiltIn]

theorem consult_notes (w : Walk) (target : Target) (component : Component) (input : Input) :
    (w.consult target component input).2.calls = w.calls.push ⟨target, input⟩ ∧
      (w.consult target component input).2.creations =
        w.creations ++ (component input).creations := by
  unfold Walk.consult
  dsimp only
  generalize component input = reply
  cases reply.outcome <;> exact ⟨rfl, rfl⟩

theorem notes_place (w : Walk) (m : Placement)
    (hkey : w.trail.key = keyAt o.keyPrefix m.position) :
    w.Notes o [m] (w.place o m.node m.node.properties m.content).2 := by
  cases h : o.components.override? m.node with
  | none => exact notes_place_builtIn o w m hkey h
  | some found =>
      have hcalls : [m].flatMap (·.calls o) = [⟨found.1, m.input o⟩] := by
        rw [List.flatMap_singleton, calls_of_override? o h]
      have hcreations : [m].flatMap (·.creations o) = (found.2 (m.input o)).creations := by
        simp [Placement.creations, h]
      have hinput : (⟨tagOf m.node, m.node.kind?, w.trail.key, m.node.properties, m.content,
          o.factory⟩ : Input) = m.input o := by
        rw [hkey]
        rfl
      unfold Walk.place
      rw [Registry.resolve_eq, h]
      dsimp only
      rw [hinput]
      obtain ⟨hcall, hcreation⟩ := consult_notes w found.1 found.2 (m.input o)
      constructor
      · rw [hcall, hcalls, Array.toList_push]
      · rw [hcreation, hcreations, Array.toList_appendList]

/-- A child is visited at its own position, and the walk can go back to that of its parent. -/
theorem notes_visit_child {n : Hypertext.Node}
    (h : ∀ (p : Position) (w : Walk), w.trail = .at o.keyPrefix o.maxDepth p →
      w.Notes o (placements o p n) (visit o n w).2)
    (p : Position) (index : Nat) (w : Walk) :
    let walked := visit o n { w with trail := .at o.keyPrefix o.maxDepth (index :: p) }
    walked.1 = rendered o (index :: p) n ∧
      walked.2.trail.ascend = .at o.keyPrefix o.maxDepth p ∧
      w.Notes o (placements o (index :: p) n)
        { walked.2 with trail := walked.2.trail.ascend } := by
  let child : Walk := { w with trail := .at o.keyPrefix o.maxDepth (index :: p) }
  obtain ⟨hresult, htrail⟩ := visit_eq o n (index :: p) child rfl
  have hn := h (index :: p) child rfl
  refine ⟨hresult, ?_, hn.calls, hn.creations⟩
  rw [htrail]
  exact Trail.ascend_at _ _ p index

theorem notes_visitAll {ns : List Hypertext.Node}
    (h : ∀ n ∈ ns, ∀ (p : Position) (w : Walk), w.trail = .at o.keyPrefix o.maxDepth p →
      w.Notes o (placements o p n) (visit o n w).2)
    (p : Position) (index : Nat) (w : Walk) (hw : w.trail = .at o.keyPrefix o.maxDepth p) :
    w.Notes o (placementsAll o p index ns) (visitAll o index ns w).2 := by
  induction ns generalizing index w with
  | nil => exact .nil w
  | cons n rest ih =>
      rw [List.forall_mem_cons] at h
      rw [visitAll, placementsAll, hw, Trail.descend?_at]
      by_cases hroom : p.length < o.maxDepth
      · simp only [if_pos hroom]
        obtain ⟨hresult, hback, hn⟩ := notes_visit_child o h.1 p index w
        rw [← hresult]
        generalize visit o n { w with trail := .at o.keyPrefix o.maxDepth (index :: p) } = walked
          at hback hn
        obtain ⟨result, w'⟩ := walked
        cases result with
        | error e =>
            rw [following, List.append_nil]
            exact hn
        | ok r =>
            have hboth := hn.append (ih h.2 (index + 1) _ hback)
            rw [following]
            dsimp only
            generalize visitAll o (index + 1) rest { w' with trail := w'.trail.ascend } = walked
              at hboth
            obtain ⟨others, w''⟩ := walked
            cases others <;> exact hboth
      · simp only [if_neg hroom]
        exact .nil w

/-- A visit notes what comes of placing the nodes from its own down. -/
theorem notes_visit (n : Hypertext.Node) (p : Position) (w : Walk)
    (hw : w.trail = .at o.keyPrefix o.maxDepth p) :
    w.Notes o (placements o p n) (visit o n w).2 := by
  induction n using Hypertext.Node.induction_children generalizing p w with
  | step n ih =>
      have hall := notes_visitAll o ih p 0 w hw
      obtain ⟨hresult, htrail⟩ := visitAll_eq o n.children p 0 w hw
      rw [visit_eq_place, placements_eq, ← hresult]
      generalize visitAll o 0 n.children w = walked at hall htrail
      obtain ⟨result, w'⟩ := walked
      cases result with
      | error e =>
          rw [following, List.append_nil]
          exact hall
      | ok children =>
          have hkey : w'.trail.key = keyAt o.keyPrefix p := by
            rw [show w'.trail = w.trail from htrail, hw]
            rfl
          exact hall.append (notes_place o w' ⟨p, n, contentOf n children⟩ hkey)

theorem notes_renderHypertext (n : Hypertext.Node) :
    let ms := placements o [] (.root n.rootChildren)
    (renderHypertext o n).calls = ms.flatMap (·.calls o) ∧
      (renderHypertext o n).creations = ms.flatMap (·.creations o) ++
        following (rendered o [] (.root n.rootChildren)) fun
          | .element _ => []
          | other => [⟨containerTag, ⟨some o.keyPrefix, .empty⟩, [other]⟩] := by
  have hnotes := notes_visit o (.root n.rootChildren) [] (.start o.keyPrefix o.maxDepth) rfl
  obtain ⟨hresult, htrail⟩ := visit_eq o (.root n.rootChildren) []
    (.start o.keyPrefix o.maxDepth) rfl
  rw [renderHypertext, ← hresult]
  generalize visit o (.root n.rootChildren) (.start o.keyPrefix o.maxDepth) = walked
    at hnotes htrail
  obtain ⟨result, w⟩ := walked
  have hkey : w.trail.key = o.keyPrefix := by
    rw [show w.trail = _ from htrail]
    rfl
  have hcalls : w.calls.toList = _ := hnotes.calls
  have hcreations : w.creations.toList = _ := hnotes.creations
  cases result with
  | error e => simp [following, hcalls, hcreations, Walk.start]
  | ok r => cases r <;> simp [following, hcalls, hcreations, hkey, Walk.start, Walk.create]

def Options.overridden (o : Options) (ms : List (Position × Hypertext.Node)) :
    List (Position × Hypertext.Node) :=
  ms.filter fun m => (o.components.override? m.2).isSome

/-- How many nodes a node is placed with: one for each child, and one for a text or raw HTML. -/
def contentCount : Hypertext.Node → Nat
  | .text _ | .raw _ => 1
  | .root children => children.length
  | .element e => e.children.length

namespace Call

/-- Whether a call asks the component for a node about it, with the renderings of its children or,
if it is a text or raw HTML, with the node itself. -/
structure IsFor (m : Position × Hypertext.Node) (c : Call) : Prop where
  target : (o.components.override? m.2).map (·.1) = some c.target
  tag : c.input.tag = tagOf m.2
  kind : c.input.kind = m.2.kind?
  key : c.input.key = keyAt o.keyPrefix m.1
  properties : c.input.properties = m.2.properties
  content : ∃ children, renderedAll o m.1 0 m.2.children = .ok children ∧
    c.input.children = contentOf m.2 children
  count : c.input.children.length = contentCount m.2
  factory : c.input.factory = o.factory

def Succeeds (c : Call) : Prop :=
  ∃ component r, o.components.get? c.target = some component ∧
    (component c.input).outcome = .ok r

def Fails (c : Call) (cause : String) : Prop :=
  ∃ component, o.components.get? c.target = some component ∧
    (component c.input).outcome = .error cause

end Call

theorem length_contentOf {p : Position} {n : Hypertext.Node} {children : List Keyed.Node}
    (h : renderedAll o p 0 n.children = .ok children) :
    (contentOf n children).length = contentCount n := by
  cases n with
  | root cs => exact length_renderedAll o h
  | element e => exact length_renderedAll o h
  | text value => rfl
  | raw value => rfl

theorem isFor_call {m : Placement} (hfilled : m.IsFilled o) {found : Target × Component}
    (hfound : o.components.override? m.node = some found) :
    Call.IsFor o m.located ⟨found.1, m.input o⟩ := by
  obtain ⟨children, hchildren, hcontent⟩ := hfilled
  refine ⟨?_, rfl, rfl, rfl, rfl, ⟨children, hchildren, hcontent⟩, ?_, rfl⟩
  · rw [show o.components.override? m.located.2 = some found from hfound]
    rfl
  · rw [show (m.input o).children = contentOf m.node children from hcontent]
    exact length_contentOf o hchildren

theorem isFor_calls {ms : List Placement} (hfilled : ∀ m ∈ ms, m.IsFilled o) :
    List.Forall₂ (Call.IsFor o) (o.overridden (ms.map Placement.located))
      (ms.flatMap (·.calls o)) := by
  induction ms with
  | nil => exact .nil
  | cons m ms ih =>
      rw [List.forall_mem_cons] at hfilled
      rw [List.map_cons, List.flatMap_cons, Options.overridden, List.filter_cons]
      cases hfound : o.components.override? m.node with
      | none =>
          rw [Placement.calls, hfound, if_neg (by simp [Placement.located, hfound])]
          exact ih hfilled.2
      | some found =>
          rw [calls_of_override? o hfound, if_pos (by simp [Placement.located, hfound])]
          exact .cons (isFor_call o hfilled.1 hfound) (ih hfilled.2)

theorem succeeds_calls {ms : List Placement} (h : ∀ m ∈ ms, m.Succeeds o) :
    ∀ c ∈ ms.flatMap (·.calls o), c.Succeeds o := by
  intro c hc
  obtain ⟨m, hm, hc⟩ := List.mem_flatMap.mp hc
  cases hfound : o.components.override? m.node with
  | none =>
      rw [Placement.calls, hfound] at hc
      exact absurd hc List.not_mem_nil
  | some found =>
      rw [calls_of_override? o hfound] at hc
      obtain rfl := List.mem_singleton.mp hc
      obtain ⟨r, hr⟩ := h m hm found hfound
      exact ⟨found.2, r, Registry.get?_of_override? hfound, hr⟩

section

variable {o} {pre post : List (Position × Hypertext.Node)} {ms : List Placement}

theorem calls_of_finished (h : Finished o pre post ms) (hfilled : ∀ m ∈ ms, m.IsFilled o) :
    List.Forall₂ (Call.IsFor o) (o.overridden post) (ms.flatMap (·.calls o)) ∧
      ∀ c ∈ ms.flatMap (·.calls o), c.Succeeds o := by
  refine ⟨?_, succeeds_calls o h.succeeded⟩
  rw [← h.inOrder]
  exact isFor_calls o hfilled

/-- The component that fails is called last. -/
theorem calls_of_component {target key cause : String}
    (h : Stopped o pre post ms (.component target key cause)) (hfilled : ∀ m ∈ ms, m.IsFilled o) :
    ∃ asked front last, asked <+: o.overridden post ∧
      List.Forall₂ (Call.IsFor o) asked (ms.flatMap (·.calls o)) ∧
      ms.flatMap (·.calls o) = front ++ [last] ∧ (∀ c ∈ front, c.Succeeds o) ∧
      last.Fails o cause ∧ target = last.target.text ∧ key = last.input.key := by
  obtain ⟨front, last, rfl, hprefix, hsucceeds, found, hfound, hcause, htext, hkey⟩ := h
  have hcalls : (front ++ [last]).flatMap (·.calls o) =
      front.flatMap (·.calls o) ++ [⟨found.1, last.input o⟩] := by
    rw [List.flatMap_append, List.flatMap_singleton, calls_of_override? o hfound]
  have hfails : Call.Fails o ⟨found.1, last.input o⟩ cause :=
    ⟨found.2, Registry.get?_of_override? hfound, hcause⟩
  exact ⟨_, _, _, hprefix.filter _, isFor_calls o hfilled, hcalls, succeeds_calls o hsucceeds,
    hfails, htext, hkey⟩

theorem calls_of_depthExceeded {limit : Nat} (h : Stopped o pre post ms (.depthExceeded limit))
    (hfilled : ∀ m ∈ ms, m.IsFilled o) :
    limit = o.maxDepth ∧ ∃ first, firstTooDeep o pre = some first ∧
      List.Forall₂ (Call.IsFor o) ((o.overridden post).filter fun m => m.1.leftOf first.1)
        (ms.flatMap (·.calls o)) ∧
      ∀ c ∈ ms.flatMap (·.calls o), c.Succeeds o := by
  obtain ⟨hlimit, first, hfirst, hplaced, hsucceeds⟩ := h
  refine ⟨hlimit, first, hfirst, ?_, succeeds_calls o hsucceeds⟩
  rw [Options.overridden, List.filter_comm, ← hplaced]
  exact isFor_calls o hfilled

end

/-- The calls of a rendering are for the nodes with a component, in post-order. If it fails with
the error of a component, they end with that of the first node whose component fails; if the tree
is too deep, they are for the nodes that end before the first one below the limit. -/
theorem calls_renderHypertext (n : Hypertext.Node) :
    let root := Hypertext.Node.root n.rootChildren
    let asked := o.overridden (postorder [] root)
    let calls := (renderHypertext o n).calls
    match (renderHypertext o n).outcome with
    | .ok _ => List.Forall₂ (Call.IsFor o) asked calls ∧ ∀ c ∈ calls, c.Succeeds o
    | .error (.component target key cause) =>
        ∃ ms front last, ms <+: asked ∧ List.Forall₂ (Call.IsFor o) ms calls ∧
          calls = front ++ [last] ∧ (∀ c ∈ front, c.Succeeds o) ∧ last.Fails o cause ∧
          target = last.target.text ∧ key = last.input.key
    | .error (.depthExceeded limit) =>
        limit = o.maxDepth ∧ ∃ first, firstTooDeep o (located [] root) = some first ∧
          List.Forall₂ (Call.IsFor o) (asked.filter fun m => m.1.leftOf first.1) calls ∧
          ∀ c ∈ calls, c.Succeeds o := by
  have hreached := reached_placements (o := o) (.root n.rootChildren) [] (Nat.zero_le _)
  have hfilled := isFilled_placements o (.root n.rootChildren) []
  have hcalls := (notes_renderHypertext o n).1
  dsimp only at hcalls ⊢
  rw [hcalls, outcome_renderHypertext]
  generalize placements o [] (.root n.rootChildren) = ms at hreached hfilled
  cases hresult : rendered o [] (.root n.rootChildren) with
  | ok r =>
      rw [hresult] at hreached
      have hdone := calls_of_finished hreached hfilled
      cases r <;> exact hdone
  | error e =>
      rw [hresult, reached_error] at hreached
      cases e with
      | component target key cause => exact calls_of_component hreached hfilled
      | depthExceeded limit => exact calls_of_depthExceeded hreached hfilled

theorem calls_renderHypertext_ruledParagraph :
    let calls := (renderHypertext ruling ruledParagraph).calls
    List.Forall₂ (Call.IsFor ruling)
        [([0, 0], .text "a"), ([1, 0], .element ⟨"hr", .empty, [], none⟩)] calls ∧
      calls.map (fun c => (c.target, c.input.key)) =
        [(.kind .text, "h-0-0"), (.tag "hr", "h-0-1")] := by
  intro calls
  have houtcome : (renderHypertext ruling ruledParagraph).outcome = .ok renderedParagraph := by
    rw [outcome_renderHypertext, rendered_ruledParagraph]
  have hcalls := calls_renderHypertext ruling ruledParagraph
  dsimp only at hcalls
  rw [houtcome] at hcalls
  have hfor : List.Forall₂ (Call.IsFor ruling)
      [([0, 0], .text "a"), ([1, 0], .element ⟨"hr", .empty, [], none⟩)] calls := hcalls.1
  refine ⟨hfor, ?_⟩
  obtain ⟨first, rest, hfirst, hrest, hsplit⟩ := List.forall₂_cons_left_iff.mp hfor
  obtain ⟨second, none, hsecond, hnone, rfl⟩ := List.forall₂_cons_left_iff.mp hrest
  obtain rfl := List.forall₂_nil_left_iff.mp hnone
  have htext : Target.kind .text = first.target := Option.some.inj hfirst.target
  have hrule : Target.tag "hr" = second.target := Option.some.inj hsecond.target
  rw [hsplit, List.map_cons, List.map_cons, List.map_nil, hfirst.key, hsecond.key, ← htext,
    ← hrule]
  rfl

end KeyedMarkup.Render
