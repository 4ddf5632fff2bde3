import Mathlib.Data.String.Basic
import KeyedMarkup.Render.Walk

/-!
# Rendering without a trail

A position is the list of sibling indices on the way to it, and its key can be told from that
alone. So can the rendering of a node: what follows is a plain recursion without a state, and the
walk, which carries one trail through the whole tree, finds the same results and the same first
error. For this every visit must leave the trail as it was, also when it fails.
-/

namespace KeyedMarkup.Render

/-- The sibling indices on the way to a node, the nearest first. -/
abbrev Position := List Nat

def keyAt (keyPrefix : String) : Position → String
  | [] => keyPrefix
  | index :: up => keyAt keyPrefix up ++ "-" ++ toString index

/-- Where the part of each level begins in the key of a position, nearest first. -/
def startsAt (keyPrefix : String) : Position → List Nat
  | [] => []
  | _ :: up => (keyAt keyPrefix up).utf8ByteSize :: startsAt keyPrefix up

def Trail.at (keyPrefix : String) (limit : Nat) (p : Position) : Trail :=
  ⟨keyAt keyPrefix p, startsAt keyPrefix p, limit⟩

/-- A key is its prefix followed by the indices in the order of the way, each after a hyphen. -/
theorem keyAt_reverse (keyPrefix : String) (path : List Nat) :
    keyAt keyPrefix path.reverse =
      path.foldl (fun key index => key ++ "-" ++ toString index) keyPrefix := by
  rw [← List.foldr_reverse]
  induction path.reverse with
  | nil => rfl
  | cons index up ih => rw [keyAt, ih, List.foldr_cons]

theorem extract_append (key segment : String) :
    String.Pos.Raw.extract (key ++ segment) 0 ⟨key.utf8ByteSize⟩ = key := by
  have hcut := String.extract_of_valid [] key.toList segment.toList
  rw [List.nil_append, ← String.toList_append, String.ofList_toList, String.ofList_toList,
    String.utf8Len_toList] at hcut
  simpa using hcut

namespace Trail

variable (keyPrefix : String) (limit : Nat)

theorem depth_at (p : Position) : (Trail.at keyPrefix limit p).depth = p.length := by
  show (startsAt keyPrefix p).length = p.length
  induction p with
  | nil => rfl
  | cons index up ih => simp [startsAt, ih]

theorem descend?_at (p : Position) (index : Nat) :
    (Trail.at keyPrefix limit p).descend? index =
      if p.length < limit then some (Trail.at keyPrefix limit (index :: p)) else none := by
  rw [descend?, depth_at]
  rfl

theorem ascend_at (p : Position) (index : Nat) :
    (Trail.at keyPrefix limit (index :: p)).ascend = Trail.at keyPrefix limit p := by
  show Trail.mk (String.Pos.Raw.extract (keyAt keyPrefix p ++ "-" ++ toString index) 0
    ⟨(keyAt keyPrefix p).utf8ByteSize⟩) _ _ = _
  rw [String.append_assoc, extract_append]
  rfl

end Trail

theorem bind_eq_ok {ε α β : Type} {x : Except ε α} {f : α → Except ε β} {b : β} :
    x >>= f = .ok b ↔ ∃ a, x = .ok a ∧ f a = .ok b := by
  cases x with
  | error e => exact ⟨nofun, nofun⟩
  | ok a => exact ⟨fun h => ⟨a, rfl, h⟩, fun ⟨_, ha, h⟩ => Except.ok.inj ha ▸ h⟩

namespace Registry

variable {γ : Type} (r : Registry γ)

/-- What is registered for the tag of a node, or else for its kind. -/
def override? (n : Hypertext.Node) : Option (Target × γ) :=
  let byTag := (tagOf n).bind fun tag => (r.get? (.tag tag)).map (Target.tag tag, ·)
  let byKind := n.kind?.bind fun kind => (r.get? (.kind kind)).map (Target.kind kind, ·)
  byTag.or byKind

variable {r}

theorem get?_eq_some_iff {target : Target} {value : γ} :
    r.get? target = some value ↔ (target, value) ∈ r.entries := by
  rw [get?, List.lookup_eq_some_iff]
  constructor
  · rintro ⟨before, after, hentries, _⟩
    rw [hentries]
    exact List.mem_append_right _ List.mem_cons_self
  · intro hmem
    obtain ⟨before, after, hentries⟩ := List.append_of_mem hmem
    refine ⟨before, after, hentries, fun e he => ?_⟩
    have hdistinct := r.distinct
    rw [hentries, List.map_append, List.map_cons, List.nodup_append] at hdistinct
    have hne := hdistinct.2.2 e.1 (List.mem_map_of_mem he) target List.mem_cons_self
    exact bne_iff_ne.mpr hne.symm

theorem get?_eq_none_iff {target : Target} :
    r.get? target = none ↔ target ∉ r.entries.map (·.1) := by
  rw [get?, List.lookup_eq_none_iff]
  constructor
  · intro h hmem
    obtain ⟨e, he, rfl⟩ := List.mem_map.mp hmem
    exact absurd rfl (bne_iff_ne.mp (h e he))
  · intro h e he
    refine bne_iff_ne.mpr ?_
    rintro rfl
    exact h (List.mem_map_of_mem he)

/-- What is found for a node is an entry for its tag, or one for its kind if there is no entry for
its tag. -/
theorem override?_eq_some_iff {n : Hypertext.Node} {target : Target} {value : γ} :
    r.override? n = some (target, value) ↔ (target, value) ∈ r.entries ∧
      (target ∈ (tagOf n).map Target.tag ∨ target ∈ n.kind?.map Target.kind ∧
        ∀ tag ∈ tagOf n, .tag tag ∉ r.entries.map (·.1)) := by
  simp only [override?, Option.or_eq_some_iff, Option.bind_eq_some_iff, Option.bind_eq_none_iff,
    Option.map_eq_some_iff, Option.map_eq_none_iff, Prod.mk.injEq, get?_eq_some_iff,
    get?_eq_none_iff, Option.mem_def]
  constructor
  · rintro (⟨tag, htag, _, hmem, rfl, rfl⟩ | ⟨hnone, kind, hkind, _, hmem, rfl, rfl⟩)
    · exact ⟨hmem, .inl ⟨tag, htag, rfl⟩⟩
    · exact ⟨hmem, .inr ⟨⟨kind, hkind, rfl⟩, hnone⟩⟩
  · rintro ⟨hmem, ⟨tag, htag, rfl⟩ | ⟨⟨kind, hkind, rfl⟩, hnone⟩⟩
    · exact .inl ⟨tag, htag, value, hmem, rfl, rfl⟩
    · exact .inr ⟨hnone, kind, hkind, value, hmem, rfl, rfl⟩

theorem mem_of_override? {n : Hypertext.Node} {found : Target × γ}
    (h : r.override? n = some found) : found ∈ r.entries :=
  (override?_eq_some_iff.mp h).1

theorem get?_of_override? {n : Hypertext.Node} {found : Target × γ}
    (h : r.override? n = some found) : r.get? found.1 = some found.2 :=
  get?_eq_some_iff.mpr (mem_of_override? h)

variable (r)

/-- Nothing would be found in an empty registry, so it need not be searched. -/
theorem found?_eq (n : Hypertext.Node) :
    r.found? n = (targets n).findSome? fun t => (r.get? t).map (Resolution.override t) := by
  unfold found?
  split
  next hempty =>
    symm
    rw [List.findSome?_eq_none_iff]
    intro t _
    rw [get?, List.isEmpty_iff.mp hempty]
    rfl
  next => rfl

theorem resolve_eq (n : Hypertext.Node) :
    r.resolve n = match r.override? n with
      | some (target, value) => .override target value
      | none => builtIn n := by
  rw [resolve, found?_eq]
  unfold targets override?
  cases tagOf n with
  | none =>
      cases n.kind? with
      | none => rfl
      | some kind => cases hkind : r.get? (.kind kind) <;> simp [hkind]
  | some tag =>
      cases htag : r.get? (.tag tag) with
      | some value => simp [htag]
      | none =>
          cases n.kind? with
          | none => simp [htag]
          | some kind => cases hkind : r.get? (.kind kind) <;> simp [htag, hkind]

theorem builtIn_element (e : Hypertext.Element) :
    (builtIn (.element e) : Resolution γ) = .fallback ∨
      (builtIn (.element e) : Resolution γ) = .builtIn .element := by
  rw [builtIn]
  split
  · exact .inl rfl
  · exact .inr rfl

end Registry

variable (o : Options)

/-- What becomes of a node with a given key when its children are rendered: the answer of the
component for it, or its own rendering if there is none. -/
def placed (key : String) (n : Hypertext.Node) (properties : Properties)
    (children : List Keyed.Node) (own : Keyed.Node) : Except Error Keyed.Node :=
  match o.components.override? n with
  | none => .ok own
  | some (target, component) =>
      match (component ⟨tagOf n, n.kind?, key, properties, children, o.factory⟩).outcome with
      | .ok r => .ok r
      | .error cause => .error (.component target.text key cause)

mutual

/-- The rendering of a node at a position. -/
def rendered (p : Position) : Hypertext.Node → Except Error Keyed.Node
  | .root children => do
      let key := keyAt o.keyPrefix p
      let content ← renderedAll p 0 children
      placed o key (.root children) .empty content
        (.element (o.factory.create containerTag ⟨some key, .empty⟩ content))
  | .element ⟨tag, properties, children, kind⟩ => do
      let key := keyAt o.keyPrefix p
      let content ← renderedAll p 0 children
      placed o key (.element ⟨tag, properties, children, kind⟩) properties content
        (.element (o.factory.create tag ⟨some key, properties⟩ content))
  | .text value => placed o (keyAt o.keyPrefix p) (.text value) .empty [.text value] (.text value)
  | .raw value => placed o (keyAt o.keyPrefix p) (.raw value) .empty [.raw value] (.raw value)

/-- The renderings of the children of a position from a given index on. -/
def renderedAll (p : Position) (index : Nat) :
    List Hypertext.Node → Except Error (List Keyed.Node)
  | [] => .ok []
  | n :: rest =>
      if p.length < o.maxDepth then do
        let r ← rendered (index :: p) n
        return r :: (← renderedAll p (index + 1) rest)
      else .error (.depthExceeded o.maxDepth)

end

def ownRendering (key : String) (n : Hypertext.Node) (properties : Properties)
    (children : List Keyed.Node) : Keyed.Node :=
  match n with
  | .text _ | .raw _ => children.headD (.text "")
  | n => .element (o.factory.create ((tagOf n).getD containerTag) ⟨some key, properties⟩ children)

theorem place_builtIn (w : Walk) (n : Hypertext.Node) (properties : Properties)
    (children : List Keyed.Node) (h : o.components.override? n = none) :
    (w.place o n properties children).1 =
        .ok (ownRendering o w.trail.key n properties children) ∧
      (w.place o n properties children).2.trail = w.trail := by
  unfold Walk.place
  rw [Registry.resolve_eq, h]
  cases n with
  | root children => exact ⟨rfl, rfl⟩
  | text value => exact ⟨rfl, rfl⟩
  | raw value => exact ⟨rfl, rfl⟩
  | element e =>
      -- Elements of unknown kind are rendered like the others.
      rcases Registry.builtIn_element (γ := Component) e with hbuiltIn | hbuiltIn
      · rw [hbuiltIn]
        exact ⟨rfl, rfl⟩
      · rw [hbuiltIn]
        exact ⟨rfl, rfl⟩

theorem place_eq (w : Walk) (n : Hypertext.Node) (properties : Properties)
    (children : List Keyed.Node) :
    (w.place o n properties children).1 = placed o w.trail.key n properties children
        (ownRendering o w.trail.key n properties children) ∧
      (w.place o n properties children).2.trail = w.trail := by
  unfold placed
  cases h : o.components.override? n with
  | none => exact place_builtIn o w n properties children h
  | some found =>
      obtain ⟨target, component⟩ := found
      unfold Walk.place
      rw [Registry.resolve_eq, h]
      unfold Walk.consult
      dsimp only
      generalize component ⟨tagOf n, n.kind?, w.trail.key, properties, children, o.factory⟩ =
        reply
      cases reply.outcome <;> exact ⟨rfl, rfl⟩

theorem placeContent_eq (walked : Walked (List Keyed.Node)) (n : Hypertext.Node)
    (properties : Properties) :
    let key := walked.2.trail.key
    let result : Walked Keyed.Node := match walked with
      | (.ok content, w) => w.place o n properties content
      | (.error e, w) => (.error e, w)
    (result.1 = do
        let content ← walked.1
        placed o key n properties content (ownRendering o key n properties content)) ∧
      result.2.trail = walked.2.trail := by
  obtain ⟨outcome, w⟩ := walked
  cases outcome with
  | error e => exact ⟨rfl, rfl⟩
  | ok content => exact place_eq o w n properties content

mutual

/-- A visit gives the rendering at the position of the trail and leaves the trail there. -/
theorem visit_eq (n : Hypertext.Node) (p : Position) (w : Walk)
    (hw : w.trail = .at o.keyPrefix o.maxDepth p) :
    (visit o n w).1 = rendered o p n ∧ (visit o n w).2.trail = w.trail := by
  have hkey : w.trail.key = keyAt o.keyPrefix p := by rw [hw]; rfl
  cases n with
  | root children =>
      obtain ⟨hresult, htrail⟩ := visitAll_eq children p 0 w hw
      obtain ⟨hplaced, hsame⟩ :=
        placeContent_eq o (visitAll o 0 children w) (.root children) .empty
      rw [htrail, hkey] at hplaced
      rw [visit, rendered, ← hresult]
      exact ⟨hplaced, hsame.trans htrail⟩
  | element e =>
      obtain ⟨tag, properties, children, kind⟩ := e
      obtain ⟨hresult, htrail⟩ := visitAll_eq children p 0 w hw
      obtain ⟨hplaced, hsame⟩ := placeContent_eq o (visitAll o 0 children w)
        (.element ⟨tag, properties, children, kind⟩) properties
      rw [htrail, hkey] at hplaced
      rw [visit, rendered, ← hresult]
      exact ⟨hplaced, hsame.trans htrail⟩
  | text value =>
      rw [visit, rendered, ← hkey]
      exact place_eq o w (.text value) .empty [.text value]
  | raw value =>
      rw [visit, rendered, ← hkey]
      exact place_eq o w (.raw value) .empty [.raw value]

theorem visitAll_eq (ns : List Hypertext.Node) (p : Position) (index : Nat) (w : Walk)
    (hw : w.trail = .at o.keyPrefix o.maxDepth p) :
    (visitAll o index ns w).1 = renderedAll o p index ns ∧
      (visitAll o index ns w).2.trail = w.trail := by
  cases ns with
  | nil => exact ⟨rfl, rfl⟩
  | cons n rest =>
      rw [visitAll, renderedAll, hw, Trail.descend?_at]
      by_cases hdeep : p.length < o.maxDepth
      · simp only [if_pos hdeep]
        obtain ⟨hresult, htrail⟩ := visit_eq n (index :: p)
          { w with trail := .at o.keyPrefix o.maxDepth (index :: p) } rfl
        rw [← hresult]
        generalize visit o n { w with trail := .at o.keyPrefix o.maxDepth (index :: p) } = walked
          at htrail
        obtain ⟨result, w'⟩ := walked
        have hback : w'.trail.ascend = .at o.keyPrefix o.maxDepth p := by
          rw [show w'.trail = .at o.keyPrefix o.maxDepth (index :: p) from htrail,
            Trail.ascend_at]
        cases result with
        | error e => exact ⟨rfl, hback⟩
        | ok r =>
            obtain ⟨hrest, hsame⟩ := visitAll_eq rest p (index + 1)
              { w' with trail := w'.trail.ascend } hback
            dsimp only
            rw [← hrest]
            generalize visitAll o (index + 1) rest { w' with trail := w'.trail.ascend } = walked
              at hsame
            obtain ⟨others, w''⟩ := walked
            cases others <;> exact ⟨rfl, hsame.trans hback⟩
      · simp only [if_neg hdeep]
        exact ⟨rfl, hw⟩

end

theorem outcome_renderHypertext (n : Hypertext.Node) :
    (renderHypertext o n).outcome = match rendered o [] (.root n.rootChildren) with
      | .error e => .error e
      | .ok (.element e) => .ok e
      | .ok other => .ok (o.factory.create containerTag ⟨some o.keyPrefix, .empty⟩ [other]) := by
  obtain ⟨hresult, htrail⟩ := visit_eq o (.root n.rootChildren) []
    (.start o.keyPrefix o.maxDepth) rfl
  rw [renderHypertext, ← hresult]
  generalize visit o (.root n.rootChildren) (.start o.keyPrefix o.maxDepth) = walked at htrail
  obtain ⟨result, w⟩ := walked
  have hkey : w.trail.key = o.keyPrefix := by
    rw [show w.trail = _ from htrail]
    rfl
  cases result with
  | error e => rfl
  | ok r => cases r <;> simp [Walk.create, hkey]

/-- The walk refines the recursion: both give the same tree or the same first error. The key of
each node is the prefix with the indices on the way to it, and what is made of the root is put
into a container with the bare prefix as its key unless it is an element. -/
theorem renderHypertext_refines (n : Hypertext.Node) :
    (∀ path : List Nat, keyAt o.keyPrefix path.reverse =
      path.foldl (fun key index => key ++ "-" ++ toString index) o.keyPrefix) ∧
    (renderHypertext o n).outcome = do
      match ← rendered o [] (.root n.rootChildren) with
      | .element e => return e
      | other => return o.factory.create containerTag ⟨some o.keyPrefix, .empty⟩ [other] := by
  refine ⟨keyAt_reverse o.keyPrefix, ?_⟩
  rw [outcome_renderHypertext]
  cases rendered o [] (.root n.rootChildren) with
  | error e => rfl
  | ok r => cases r <;> rfl

def ruling : Options where
  components := .ofList
    [(.kind .text, fun i => i.element "span"), (.tag "hr", fun _ => .node (.raw "<hr>"))]

def ruledParagraph : Hypertext.Node :=
  .element ⟨"p", .empty, [.text "a", .element ⟨"hr", .empty, [], none⟩], some .paragraph⟩

def renderedParagraph : Keyed.Element :=
  ⟨"div", some "h", .empty, [.element ⟨"p", some "h-0", .empty,
    [.element ⟨"span", some "h-0-0", .empty, [.text "a"]⟩, .raw "<hr>"]⟩]⟩

theorem rendered_ruledParagraph :
    rendered ruling [] (.root ruledParagraph.rootChildren) =
      .ok (.element renderedParagraph) := by
  with_unfolding_all rfl

theorem renderHypertext_refines_ruledParagraph :
    (renderHypertext ruling ruledParagraph).outcome = .ok renderedParagraph := by
  rw [(renderHypertext_refines ruling ruledParagraph).2, rendered_ruledParagraph]
  rfl

end KeyedMarkup.Render
