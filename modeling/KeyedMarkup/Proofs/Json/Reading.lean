import KeyedMarkup.Json.Value
import KeyedMarkup.Proofs.Json.Scanning
import KeyedMarkup.Proofs.Number.Range

/-!
# Reading what was written

From the text of a value that value is read again, but for its numbers: each one becomes what its
own text is read as, which is `null` if it is not finite. Whatever text a value is read from, all
numbers of it are finite.
-/

namespace KeyedMarkup.Json

/-- What is read from the text of a number. -/
def readNumber (x : Binary64) : Value := (Value.ofText? (numberText x)).getD .null

/-- Whether the text of a number is read as that number. -/
def ReadsBack (x : Binary64) : Prop := Value.ofText? (numberText x) = some (.number x)

theorem ReadsBack.readNumber_eq {x : Binary64} (h : ReadsBack x) : readNumber x = .number x := by
  rw [readNumber, h]
  rfl

theorem ofText?_numberText (x : Binary64) :
    Value.ofText? (numberText x) = Value.ofTokens? [numberToken x] := by
  have htokens := (scans_numberText x).tokens?_eq
  rw [String.ofList_toList] at htokens
  rw [Value.ofText?, htokens]
  rfl

theorem readNumber_of_not_isFinite {x : Binary64} (h : ¬x.isFinite = true) :
    readNumber x = .null := by
  rw [readNumber, ofText?_numberText, numberToken_of_not_isFinite h]
  rfl

theorem readsBack_iff {x : Binary64} : ReadsBack x ↔ numberToken x = .number (some x) := by
  rw [ReadsBack, ofText?_numberText]
  constructor
  · intro h
    by_cases hx : x.isFinite = true
    · obtain ⟨y, hy⟩ := numberToken_of_isFinite hx
      rw [hy] at h ⊢
      cases y with
      | none => cases h
      | some y =>
          cases h
          rfl
    · rw [numberToken_of_not_isFinite hx] at h
      cases h
  · intro h
    rw [h]
    rfl

instance : DecidablePred ReadsBack := fun _ => decidable_of_iff _ readsBack_iff.symm

theorem startValue_numberToken (frames : List Frame) (x : Binary64) :
    Reading.startValue frames (numberToken x) = some (Reading.accept frames (readNumber x)) := by
  rw [readNumber, ofText?_numberText]
  by_cases hx : x.isFinite = true
  · obtain ⟨y, hy⟩ := numberToken_of_isFinite hx
    rw [hy]
    cases y with
    | none => rfl
    | some y => rfl
  · rw [numberToken_of_not_isFinite hx]
    rfl

namespace Reading

/-- Whether any value may come next. An array that was just opened may end instead. -/
def AwaitsValue (r : Reading) : Prop :=
  ∀ t, t ≠ .closeBracket → r.step t = startValue r.frames t

/-- Whether the name of a field may come next, after some fields of an object. -/
def AwaitsName (r : Reading) (latest : List (Option String × Value)) (outer : List Frame) : Prop :=
  ∀ name, r.step (.text name) = some ⟨.entry latest name :: outer, .colon⟩

theorem run_cons {r r' : Reading} {t : Token} (h : r.step t = some r') (ts : List Token) :
    r.run (t :: ts) = r'.run ts := by
  rw [run, h]

def named (fields : List (String × Value)) : List (Option String × Value) :=
  fields.map fun f => (some f.1, f.2)

theorem reverse_named_append (fields : List (String × Value)) (name : String) (v : Value) :
    (named (fields ++ [(name, v)])).reverse = (some name, v) :: (named fields).reverse := by
  simp [named]

theorem objectOf_named (fields : List (String × Value)) :
    objectOf (named fields) = .object fields := by
  simp [objectOf, named, Function.comp_def]

end Reading

namespace Value

mutual

def reread : Value → Value
  | .null | .unusable => .null
  | .flag b => .flag b
  | .number x => readNumber x
  | .text s => .text s
  | .array items => .array (rereadItems items)
  | .object fields => .object (rereadFields fields)

def rereadItems : List Value → List Value
  | [] => []
  | v :: rest => v.reread :: rereadItems rest

def rereadFields : List (String × Value) → List (String × Value)
  | [] => []
  | (name, v) :: rest => (name, v.reread) :: rereadFields rest

end

theorem rereadItems_eq_map (items : List Value) : rereadItems items = items.map reread := by
  induction items with
  | nil => rfl
  | cons v rest ih => rw [rereadItems, ih, List.map_cons]

theorem rereadFields_eq_map (fields : List (String × Value)) :
    rereadFields fields = fields.map fun f => (f.1, f.2.reread) := by
  induction fields with
  | nil => rfl
  | cons f rest ih => rw [rereadFields, ih, List.map_cons]

theorem reread_text (s : String) : (text s).reread = .text s := rfl

theorem reread_array (items : List Value) : (array items).reread = .array (items.map reread) := by
  rw [reread, rereadItems_eq_map]

theorem reread_object (fields : List (String × Value)) :
    (object fields).reread = .object (fields.map fun f => (f.1, f.2.reread)) := by
  rw [reread, rereadFields_eq_map]

open Reading

theorem run_field {v : Value}
    (hv : ∀ {r : Reading}, r.AwaitsValue → ∀ rest : List Token,
      r.run (v.tokens ++ rest) = (accept r.frames v.reread).run rest)
    {r : Reading} {latest : List (Option String × Value)} {outer : List Frame}
    (hr : r.AwaitsName latest outer) (name : String) (rest : List Token) :
    r.run (.text (some name) :: .colon :: (v.tokens ++ rest)) =
      Reading.run ⟨.fields ((some name, v.reread) :: latest) :: outer, .next⟩ rest := by
  have hcolon : step ⟨.entry latest (some name) :: outer, .colon⟩ .colon =
      some ⟨.entry latest (some name) :: outer, .value⟩ := rfl
  have hvalue : AwaitsValue ⟨.entry latest (some name) :: outer, .value⟩ := fun _ _ => rfl
  rw [run_cons (hr (some name)), run_cons hcolon, hv hvalue, accept]

mutual

/-- The tokens of a value are taken as that value, whatever is open around it. -/
theorem run_tokens (v : Value) {r : Reading} (hr : r.AwaitsValue) (rest : List Token) :
    r.run (v.tokens ++ rest) = (accept r.frames v.reread).run rest := by
  match v with
  | .null | .unusable | .flag b | .text s => exact run_cons (hr _ (by simp)) rest
  | .number x =>
      have hne : numberToken x ≠ .closeBracket := by
        by_cases hx : x.isFinite = true
        · obtain ⟨y, hy⟩ := numberToken_of_isFinite hx
          simp [hy]
        · simp [numberToken_of_not_isFinite hx]
      have hstep := (hr _ hne).trans (startValue_numberToken r.frames x)
      rw [tokens, reread, List.singleton_append, run_cons hstep]
  | .array items =>
      have hopen : r.step .openBracket = some ⟨.items [] :: r.frames, .first⟩ := hr _ (by simp)
      rw [tokens, reread, List.cons_append, List.append_assoc, List.singleton_append,
        run_cons hopen]
      by_cases hnil : items = []
      · subst hnil
        rfl
      -- An array that was just opened awaits a value, since no value begins with its end.
      · have hfirst : AwaitsValue ⟨.items [] :: r.frames, .first⟩ := by
          intro t ht
          simp only [step, if_neg ht]
        exact run_itemTokens items hnil hfirst rfl rest
  | .object fields =>
      have hopen : r.step .openBrace = some ⟨.fields [] :: r.frames, .first⟩ := hr _ (by simp)
      rw [tokens, reread, List.cons_append, List.append_assoc, List.singleton_append,
        run_cons hopen]
      by_cases hnil : fields = []
      · subst hnil
        rfl
      · have hfirst : AwaitsName ⟨.fields [] :: r.frames, .first⟩ [] r.frames := fun _ => rfl
        exact run_fieldTokens fields hnil [] hfirst rest

theorem run_itemTokens (items : List Value) (hne : items ≠ []) {r : Reading}
    (hr : r.AwaitsValue) {latest : List Value} {outer : List Frame}
    (hframes : r.frames = .items latest :: outer) (rest : List Token) :
    r.run (itemTokens items ++ .closeBracket :: rest) =
      (accept outer (.array (latest.reverse ++ rereadItems items))).run rest := by
  match items with
  | [] => exact absurd rfl hne
  | [v] =>
      have hclose : step ⟨.items (v.reread :: latest) :: outer, .next⟩ .closeBracket =
          some (accept outer (.array (v.reread :: latest).reverse)) := rfl
      rw [itemTokens, run_tokens v hr, hframes, accept, run_cons hclose, List.reverse_cons]
      rfl
  | v :: w :: items =>
      have hcomma : step ⟨.items (v.reread :: latest) :: outer, .next⟩ .comma =
          some ⟨.items (v.reread :: latest) :: outer, .value⟩ := rfl
      have hvalue : AwaitsValue ⟨.items (v.reread :: latest) :: outer, .value⟩ := fun _ _ => rfl
      have hitems := run_itemTokens (w :: items) (by simp) hvalue rfl rest
      rw [List.reverse_cons, List.append_assoc, List.singleton_append] at hitems
      rw [itemTokens_cons_cons, List.append_assoc, run_tokens v hr, hframes, accept,
        List.cons_append, run_cons hcomma, hitems]
      rfl

theorem run_fieldTokens (fields : List (String × Value)) (hne : fields ≠ []) {r : Reading}
    (read : List (String × Value)) {outer : List Frame}
    (hr : r.AwaitsName (named read).reverse outer) (rest : List Token) :
    r.run (fieldTokens fields ++ .closeBrace :: rest) =
      (accept outer (.object (read ++ rereadFields fields))).run rest := by
  match fields with
  | [] => exact absurd rfl hne
  | [(name, v)] =>
      have hfield := run_field (run_tokens v) hr name (.closeBrace :: rest)
      rw [← reverse_named_append] at hfield
      have hclose : step ⟨.fields (named (read ++ [(name, v.reread)])).reverse :: outer, .next⟩
          .closeBrace = some (accept outer (.object (read ++ [(name, v.reread)]))) := by
        simp [step, objectOf_named]
      exact hfield.trans (run_cons hclose rest)
  | (name, v) :: f :: fields =>
      have hfield := run_field (run_tokens v) hr name
        (.comma :: (fieldTokens (f :: fields) ++ .closeBrace :: rest))
      rw [← reverse_named_append] at hfield
      have hcomma : step ⟨.fields (named (read ++ [(name, v.reread)])).reverse :: outer, .next⟩
          .comma =
          some ⟨.fields (named (read ++ [(name, v.reread)])).reverse :: outer, .name⟩ := rfl
      have hname : AwaitsName
          ⟨.fields (named (read ++ [(name, v.reread)])).reverse :: outer, .name⟩
          (named (read ++ [(name, v.reread)])).reverse outer := fun _ => rfl
      have hfields := run_fieldTokens (f :: fields) (by simp) (read ++ [(name, v.reread)]) hname
        rest
      rw [List.append_assoc, List.singleton_append] at hfields
      rw [fieldTokens_cons_cons, List.cons_append, List.cons_append, List.append_assoc,
        List.cons_append, hfield, run_cons hcomma, hfields]
      rfl

end

theorem ofText?_compact (v : Value) : ofText? v.compact = some v.reread := by
  have hstart : start.AwaitsValue := fun _ _ => rfl
  have hrun := run_tokens v hstart []
  rw [List.append_nil] at hrun
  rw [ofText?, tokens?_compact, Option.bind_some, ofTokens?, hrun]
  rfl

end Value

end KeyedMarkup.Json
