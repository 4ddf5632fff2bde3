import KeyedMarkup.Json.Value
import KeyedMarkup.Proofs.Number.Range

/-!
# Numbers of a text

Whatever text is read, every number in the value is that of a numeral of the text, and so it is
finite. This is an invariant of the scan and then one of the reading: a step puts together what
was finished before, and only a numeral that ends makes a new number.
-/

namespace KeyedMarkup.Json

namespace Token

/-- Whether a token, if it is a number, is the value of a numeral. -/
def Evaluated (t : Token) : Prop := ∀ x, t = .number x → ∃ n : Numeral, n.value? = x

theorem evaluated_number (n : Numeral) : (Token.number n.value?).Evaluated := by
  intro x hx
  exact ⟨n, Token.number.inj hx⟩

theorem evaluated_of_ne {t : Token} (h : ∀ x, t ≠ .number x) : t.Evaluated :=
  fun x hx => absurd hx (h x)

end Token

namespace Scan

/-- Whether the tokens so far are evaluated, and also the one that a begun word stands for. -/
structure Evaluated (s : Scan) : Prop where
  tokens : ∀ t ∈ s.tokens, t.Evaluated
  word : ∀ left t, s.pending = .word left t → t.Evaluated

theorem Evaluated.push {ts : List Token} {t : Token} (hts : ∀ t ∈ ts, t.Evaluated)
    (ht : t.Evaluated) : Evaluated ⟨t :: ts, .nothing⟩ := by
  refine ⟨?_, nofun⟩
  rw [List.forall_mem_cons]
  exact ⟨ht, hts⟩

theorem begin_evaluated {ts : List Token} (hts : ∀ t ∈ ts, t.Evaluated) {c : Char} {s : Scan}
    (h : begin ts c = some s) : s.Evaluated := by
  unfold begin at h
  split at h
  · cases h
    exact ⟨hts, nofun⟩
  · split at h
    case h_11 =>
      obtain ⟨d, _, rfl⟩ := Option.map_eq_some_iff.mp h
      exact ⟨hts, nofun⟩
    all_goals cases h
    case h_7 => exact ⟨hts, nofun⟩
    case h_8 | h_9 | h_10 =>
      refine ⟨hts, ?_⟩
      rintro _ _ ⟨⟩
      exact Token.evaluated_of_ne nofun
    all_goals exact Evaluated.push hts (Token.evaluated_of_ne nofun)

theorem step_evaluated {s s' : Scan} {c : Char} (h : s.step c = some s') (hs : s.Evaluated) :
    s'.Evaluated := by
  obtain ⟨ts, pending⟩ := s
  obtain ⟨hts, hword⟩ := hs
  cases pending with
  | nothing => exact begin_evaluated hts h
  | word left token =>
      have htoken : token.Evaluated := hword left token rfl
      match left with
      | [] => cases h
      | [last] =>
          obtain ⟨_, rfl⟩ := Option.ite_some_none_eq_some.mp h
          exact Evaluated.push hts htoken
      | next :: next' :: left =>
          obtain ⟨_, rfl⟩ := Option.ite_some_none_eq_some.mp h
          refine ⟨hts, ?_⟩
          rintro _ _ ⟨⟩
          exact htoken
  | text q =>
      simp only [step] at h
      split at h
      · cases h
        exact Evaluated.push hts (Token.evaluated_of_ne nofun)
      · split at h
        · cases h
          exact ⟨hts, nofun⟩
        · obtain ⟨_, h⟩ := Option.ite_none_left_eq_some.mp h
          cases h
          exact ⟨hts, nofun⟩
  | escape q =>
      simp only [step] at h
      split at h
      · cases h
        exact ⟨hts, nofun⟩
      · obtain ⟨e, _, rfl⟩ := Option.map_eq_some_iff.mp h
        exact ⟨hts, nofun⟩
  | hex q digits value =>
      simp only [step] at h
      split at h
      · cases h
      · cases h
        refine ⟨hts, fun left t hpending => ?_⟩
        dsimp only at hpending
        split at hpending <;> cases hpending
  | number d =>
      simp only [step] at h
      split at h
      · cases h
      · cases h
        exact ⟨hts, nofun⟩
      · have hnumber := (Evaluated.push hts (Token.evaluated_number d.numeral)).tokens
        exact begin_evaluated hnumber h

theorem run_evaluated {s s' : Scan} {cs : List Char} (h : s.run cs = some s')
    (hs : s.Evaluated) : s'.Evaluated := by
  induction cs generalizing s with
  | nil =>
      cases h
      exact hs
  | cons c cs ih =>
      rw [run] at h
      split at h
      next hstep => exact ih h (step_evaluated hstep hs)
      next => cases h

theorem finish_evaluated {s : Scan} (hs : s.Evaluated) {ts : List Token}
    (h : s.finish = some ts) : ∀ t ∈ ts, t.Evaluated := by
  intro t ht
  unfold finish at h
  split at h
  · cases h
    exact hs.tokens t (List.mem_reverse.mp ht)
  next d _ =>
    obtain ⟨_, rfl⟩ := Option.ite_some_none_eq_some.mp h
    exact (Evaluated.push hs.tokens (Token.evaluated_number d.numeral)).tokens t (List.mem_reverse.mp ht)
  · cases h

end Scan

theorem evaluated_of_tokens? {text : String} {ts : List Token} (h : tokens? text = some ts) :
    ∀ t ∈ ts, t.Evaluated := by
  obtain ⟨s, hrun, hfinish⟩ := Option.bind_eq_some_iff.mp h
  have hstart : Scan.start.Evaluated := ⟨nofun, nofun⟩
  exact Scan.finish_evaluated (Scan.run_evaluated hrun hstart) hfinish

/-- Whether a property of values holds of all that may be read from tokens, given that it holds
of the numbers among them. -/
structure Closed (P : Value → Prop) : Prop where
  null : P .null
  flag : ∀ b, P (.flag b)
  text : ∀ s, P (.text s)
  unusable : P .unusable
  array : ∀ items, (∀ v ∈ items, P v) → P (.array items)
  object : ∀ fields, (∀ f ∈ fields, P f.2) → P (.object fields)

def Frame.values : Frame → List Value
  | .items latest => latest
  | .fields latest | .entry latest _ => latest.map (·.2)

namespace Reading

structure Holds (P : Value → Prop) (r : Reading) : Prop where
  frames : ∀ f ∈ r.frames, ∀ v ∈ f.values, P v
  phase : ∀ v, r.phase = .done v → P v

variable {P : Value → Prop}

theorem accept_holds {frames : List Frame} (h : ∀ f ∈ frames, ∀ v ∈ f.values, P v) {v : Value}
    (hv : P v) : Holds P (accept frames v) := by
  cases frames with
  | nil =>
      refine ⟨nofun, ?_⟩
      rintro _ ⟨⟩
      exact hv
  | cons f outer =>
      rw [List.forall_mem_cons] at h
      obtain ⟨hf, houter⟩ := h
      cases f with
      | items latest =>
          refine ⟨?_, nofun⟩
          rw [accept, List.forall_mem_cons]
          exact ⟨List.forall_mem_cons.mpr ⟨hv, hf⟩, houter⟩
      | fields latest =>
          refine ⟨?_, nofun⟩
          rw [accept, List.forall_mem_cons]
          exact ⟨hf, houter⟩
      | entry latest name =>
          refine ⟨?_, nofun⟩
          rw [accept, List.forall_mem_cons]
          exact ⟨List.forall_mem_cons.mpr ⟨hv, hf⟩, houter⟩

theorem objectOf_closed (hP : Closed P) {fields : List (Option String × Value)}
    (h : ∀ v ∈ fields.map (·.2), P v) : P (objectOf fields) := by
  unfold objectOf
  split
  · apply hP.object
    intro f hf
    obtain ⟨g, hg, rfl⟩ := List.mem_map.mp hf
    exact h g.2 (List.mem_map.mpr ⟨g, hg, rfl⟩)
  · exact hP.unusable

theorem startValue_holds (hP : Closed P) {t : Token}
    (ht : ∀ x, t = .number (some x) → P (.number x)) {frames : List Frame}
    (hframes : ∀ f ∈ frames, ∀ v ∈ f.values, P v) {r : Reading}
    (h : startValue frames t = some r) : Holds P r := by
  have hopened (f : Frame) (hf : f.values = []) :
      Holds P ⟨f :: frames, .first⟩ := by
    refine ⟨?_, nofun⟩
    rw [List.forall_mem_cons, hf]
    exact ⟨nofun, hframes⟩
  match t with
  | .openBracket =>
      cases h
      exact hopened _ rfl
  | .openBrace =>
      cases h
      exact hopened _ rfl
  | .null =>
      cases h
      exact accept_holds hframes hP.null
  | .flag b =>
      cases h
      exact accept_holds hframes (hP.flag b)
  | .number (some x) =>
      cases h
      exact accept_holds hframes (ht x rfl)
  | .text (some s) =>
      cases h
      exact accept_holds hframes (hP.text s)
  | .number none | .text none =>
      cases h
      exact accept_holds hframes hP.unusable
  | .closeBrace | .closeBracket | .colon | .comma => cases h

theorem startField_holds {latest : List (Option String × Value)} {outer : List Frame}
    (hframes : ∀ f ∈ Frame.fields latest :: outer, ∀ v ∈ f.values, P v) {t : Token} {r : Reading}
    (h : step ⟨.fields latest :: outer, .name⟩ t = some r) : Holds P r := by
  cases t with
  | text name =>
      cases h
      rw [List.forall_mem_cons] at hframes
      refine ⟨?_, nofun⟩
      rw [List.forall_mem_cons]
      exact hframes
  | openBrace | closeBrace | openBracket | closeBracket | colon | comma | null | flag | number =>
      cases h

/-- A step finishes a value from what was read before, or it takes a token that is one. -/
theorem step_holds (hP : Closed P) {r r' : Reading} {t : Token}
    (ht : ∀ x, t = .number (some x) → P (.number x)) (hr : Holds P r)
    (h : r.step t = some r') : Holds P r' := by
  obtain ⟨frames, phase⟩ := r
  have hframes := hr.frames
  unfold step at h
  dsimp only at h hframes
  split at h
  case h_1 => exact startValue_holds hP ht hframes h
  case h_2 =>
    obtain ⟨_, rfl⟩ := Option.ite_some_none_eq_some.mp h
    exact ⟨hframes, nofun⟩
  case h_3 latest outer =>
    split at h
    · cases h
      exact accept_holds (List.forall_mem_cons.mp hframes).2 (hP.array [] nofun)
    · exact startValue_holds hP ht hframes h
  case h_4 latest outer =>
    split at h
    · cases h
      exact accept_holds (List.forall_mem_cons.mp hframes).2 (hP.object [] nofun)
    · exact startField_holds hframes h
  case h_5 latest outer => exact startField_holds hframes h
  case h_6 latest outer =>
    split at h
    · cases h
      exact ⟨hframes, nofun⟩
    · obtain ⟨_, rfl⟩ := Option.ite_some_none_eq_some.mp h
      rw [List.forall_mem_cons] at hframes
      have harray : P (.array latest.reverse) :=
        hP.array _ fun v hv => hframes.1 v (List.mem_reverse.mp hv)
      exact accept_holds hframes.2 harray
  case h_7 latest outer =>
    split at h
    · cases h
      exact ⟨hframes, nofun⟩
    · obtain ⟨_, rfl⟩ := Option.ite_some_none_eq_some.mp h
      rw [List.forall_mem_cons] at hframes
      have hobject : P (objectOf latest.reverse) := by
        apply objectOf_closed hP
        intro v hv
        rw [List.map_reverse, List.mem_reverse] at hv
        exact hframes.1 v hv
      exact accept_holds hframes.2 hobject
  case h_8 => cases h

theorem run_holds (hP : Closed P) {r r' : Reading} {ts : List Token}
    (hts : ∀ t ∈ ts, ∀ x, t = .number (some x) → P (.number x)) (hr : Holds P r)
    (h : r.run ts = some r') : Holds P r' := by
  induction ts generalizing r with
  | nil =>
      cases h
      exact hr
  | cons t ts ih =>
      rw [List.forall_mem_cons] at hts
      rw [run] at h
      split at h
      next hstep => exact ih hts.2 (step_holds hP hts.1 hr hstep) h
      next => cases h

end Reading

namespace Value

/-- What holds of the values of numerals and is kept by arrays and objects holds of every value
that is read from a text. -/
theorem ofText?_induction {P : Value → Prop} (hP : Closed P)
    (hnumber : ∀ (n : Numeral) x, n.value? = some x → P (.number x)) {text : String} {v : Value}
    (h : ofText? text = some v) : P v := by
  obtain ⟨ts, htokens, hread⟩ := Option.bind_eq_some_iff.mp h
  obtain ⟨r, hrun, hfinish⟩ := Option.bind_eq_some_iff.mp hread
  have hstart : Reading.Holds P Reading.start := ⟨nofun, nofun⟩
  have hts : ∀ t ∈ ts, ∀ x, t = .number (some x) → P (.number x) := by
    intro t ht x hx
    obtain ⟨n, hn⟩ := evaluated_of_tokens? htokens t ht (some x) hx
    exact hnumber n x hn
  have hdone := (Reading.run_holds hP hts hstart hrun).phase
  unfold Reading.finish at hfinish
  split at hfinish
  next hphase =>
    cases hfinish
    exact hdone v hphase
  next => cases hfinish

mutual

def IsFinite : Value → Prop
  | .number x => x.isFinite = true
  | .array items => ItemsFinite items
  | .object fields => FieldsFinite fields
  | .null | .flag _ | .text _ | .unusable => True

def ItemsFinite : List Value → Prop
  | [] => True
  | v :: rest => v.IsFinite ∧ ItemsFinite rest

def FieldsFinite : List (String × Value) → Prop
  | [] => True
  | (_, v) :: rest => v.IsFinite ∧ FieldsFinite rest

end

theorem itemsFinite_iff (items : List Value) : ItemsFinite items ↔ ∀ v ∈ items, v.IsFinite := by
  induction items with
  | nil => simp [ItemsFinite]
  | cons v rest ih => rw [ItemsFinite, ih, List.forall_mem_cons]

theorem fieldsFinite_iff (fields : List (String × Value)) :
    FieldsFinite fields ↔ ∀ f ∈ fields, f.2.IsFinite := by
  induction fields with
  | nil => simp [FieldsFinite]
  | cons f rest ih => rw [FieldsFinite, ih, List.forall_mem_cons]

theorem isFinite_of_ofText? {text : String} {v : Value} (h : ofText? text = some v) :
    v.IsFinite := by
  have hclosed : Closed IsFinite :=
    { null := trivial
      flag := fun _ => trivial
      text := fun _ => trivial
      unusable := trivial
      array := fun items hitems => (itemsFinite_iff items).mpr hitems
      object := fun fields hfields => (fieldsFinite_iff fields).mpr hfields }
  exact ofText?_induction hclosed (fun _ _ hn => Numeral.isFinite_of_value? hn) h

end Value

end KeyedMarkup.Json
