import KeyedMarkup.Proofs.Json.Numerals
import Mathlib.Tactic.IntervalCases

/-!
# Scanning what was written

The compact text of a value is scanned to the tokens of the value. A token is scanned wherever it
stands, so texts are put together one after the other: what is scanned so far stays, and only a
numeral must know that it is followed by a delimiter.
-/

namespace KeyedMarkup.Json

namespace Scan

/-- The tokens of a text that is scanned on from a given state. -/
def result (s : Scan) (cs : List Char) : Option (List Token) := (s.run cs).bind finish

theorem result_cons {s s' : Scan} {c : Char} (h : s.step c = some s') (cs : List Char) :
    s.result (c :: cs) = s'.result cs := by
  rw [result, run, h]
  rfl

/-- Whether a text leads from one begun token to another one, whatever stands around it. -/
def Reaches (p : Pending) (cs : List Char) (p' : Pending) : Prop :=
  ∀ tokens rest, result ⟨tokens, p⟩ (cs ++ rest) = result ⟨tokens, p'⟩ rest

namespace Reaches

variable {p p' p'' : Pending}

theorem refl (p : Pending) : Reaches p [] p := fun _ _ => rfl

theorem append {cs ds : List Char} (h : Reaches p cs p') (h' : Reaches p' ds p'') :
    Reaches p (cs ++ ds) p'' := by
  intro tokens rest
  rw [List.append_assoc, h, h']

theorem cons {c : Char} {cs : List Char} (h : ∀ tokens, step ⟨tokens, p⟩ c = some ⟨tokens, p'⟩)
    (h' : Reaches p' cs p'') : Reaches p (c :: cs) p'' := by
  intro tokens rest
  rw [List.cons_append, result_cons (h tokens), h']

end Reaches

/-- The part of a numeral that a digit of it belongs to, where it may have any digit. -/
def digitPart : Part → Part
  | .point | .fraction => .fraction
  | .mark | .markSign | .exponent => .exponent
  | .sign | .zero | .whole => .whole

theorem step_number {d d' : Digits} {c : Char} (h : d.add c = some (some d'))
    (tokens : List Token) : step ⟨tokens, .number d⟩ c = some ⟨tokens, .number d'⟩ := by
  simp only [step, h]

theorem exists_add_digit {d : Digits} {c : Char} (hc : c.isDigit = true)
    (hsign : d.part ≠ .sign) (hzero : d.part ≠ .zero) :
    ∃ d', d'.part = digitPart d.part ∧ d.add c = some (some d') := by
  obtain ⟨part, negative, whole, fraction, exponentNegative, exponent⟩ := d
  unfold Digits.add
  rw [if_pos hc]
  cases part with
  | sign => exact absurd rfl hsign
  | zero => exact absurd rfl hzero
  | whole | point | fraction | mark | markSign | exponent => exact ⟨_, rfl, rfl⟩

theorem reaches_digits {d : Digits} {cs : List Char} (h : IsDigits cs)
    (hsign : d.part ≠ .sign) (hzero : d.part ≠ .zero) :
    ∃ d', d'.part = digitPart d.part ∧ Reaches (.number d) cs (.number d') := by
  obtain ⟨hne, hdigits⟩ := h
  induction cs generalizing d with
  | nil => exact absurd rfl hne
  | cons c cs ih =>
      rw [List.forall_mem_cons] at hdigits
      obtain ⟨d', hpart, hadd⟩ := exists_add_digit hdigits.1 hsign hzero
      cases cs with
      | nil => exact ⟨d', hpart, .cons (step_number hadd) (.refl _)⟩
      | cons c' cs =>
          have hsame : digitPart d'.part = digitPart d.part ∧ d'.part ≠ .sign ∧
              d'.part ≠ .zero := by
            rw [hpart]
            cases d.part <;> decide
          obtain ⟨d'', hpart', hreaches⟩ :=
            ih hsame.2.1 hsame.2.2 (List.cons_ne_nil c' cs) hdigits.2
          exact ⟨d'', hpart'.trans hsame.1, .cons (step_number hadd) hreaches⟩

/-- Whether the first digit of a numeral may follow. -/
def Starts (p : Pending) : Prop :=
  ∀ c : Char, c.isDigit = true → ∃ d, d.part = (if c = '0' then .zero else .whole) ∧
    ∀ tokens, step ⟨tokens, p⟩ c = some ⟨tokens, .number d⟩

theorem starts_nothing : Starts .nothing := by
  intro c hc
  have hbegin (tokens : List Token) : begin tokens c =
      (Digits.start? c).map fun d => ⟨tokens, .number d⟩ := by
    unfold begin
    split
    next hspace =>
      simp only [isSpace, Bool.or_eq_true, beq_iff_eq] at hspace
      rcases hspace with ((rfl | rfl) | rfl) | rfl <;> exact absurd hc (by decide)
    next =>
      split
      all_goals first | rfl | exact absurd hc (by decide)
  have hminus : c ≠ '-' := by
    rintro rfl
    exact absurd hc (by decide)
  simp only [step, hbegin, Digits.start?, if_neg hminus, hc, if_true]
  split
  · exact ⟨_, rfl, fun _ => rfl⟩
  · exact ⟨_, rfl, fun _ => rfl⟩

theorem starts_sign {d : Digits} (h : d.part = .sign) : Starts (.number d) := by
  obtain ⟨part, negative, whole, fraction, exponentNegative, exponent⟩ := d
  obtain rfl : part = .sign := h
  intro c hc
  have hzero : c.toNat - '0'.toNat = 0 ↔ c = '0' := by
    have hrange : '0'.toNat ≤ c.toNat := by
      simp only [Char.isDigit, Bool.and_eq_true, decide_eq_true_eq, UInt32.le_iff_toNat_le] at hc
      exact hc.1
    constructor
    · intro h
      exact Char.toNat_inj.mp (by omega)
    · rintro rfl
      rfl
  have hadd : Digits.add ⟨.sign, negative, whole, fraction, exponentNegative, exponent⟩ c =
      some (some ⟨if c.toNat - '0'.toNat = 0 then .zero else .whole, negative,
        [c.toNat - '0'.toNat], fraction, exponentNegative, exponent⟩) := by
    unfold Digits.add
    rw [if_pos hc]
    rfl
  refine ⟨_, ?_, step_number hadd⟩
  by_cases h : c = '0'
  · rw [if_pos h, if_pos (hzero.mpr h)]
  · rw [if_neg h, if_neg (mt hzero.mp h)]

theorem Starts.reaches_whole {p : Pending} (hp : Starts p) {cs : List Char} (h : IsWhole cs) :
    ∃ d, (d.part = .zero ∨ d.part = .whole) ∧ Reaches p cs (.number d) := by
  rcases h with rfl | ⟨⟨hne, hdigits⟩, hhead⟩
  · obtain ⟨d, hpart, hstep⟩ := hp '0' (by decide)
    exact ⟨d, .inl hpart, .cons hstep (.refl _)⟩
  · obtain ⟨c, ds, rfl⟩ := List.exists_cons_of_ne_nil hne
    rw [List.forall_mem_cons] at hdigits
    have hc : c ≠ '0' := fun h => hhead (by rw [h, List.head?_cons])
    obtain ⟨d, hpart, hstep⟩ := hp c hdigits.1
    rw [if_neg hc] at hpart
    by_cases hds : ds = []
    · subst hds
      exact ⟨d, .inr hpart, .cons hstep (.refl _)⟩
    · obtain ⟨d', hpart', hreaches⟩ := reaches_digits (d := d) ⟨hds, hdigits.2⟩
        (by rw [hpart]; decide) (by rw [hpart]; decide)
      rw [hpart] at hpart'
      exact ⟨d', .inr hpart', .cons hstep hreaches⟩

theorem reaches_fraction {d : Digits} (hd : d.part = .zero ∨ d.part = .whole) {cs : List Char}
    (h : IsFraction cs) :
    ∃ d', (d'.part = .zero ∨ d'.part = .whole ∨ d'.part = .fraction) ∧
      Reaches (.number d) cs (.number d') := by
  rcases h with rfl | ⟨ds, rfl, hds⟩
  · exact ⟨d, hd.imp_right .inl, .refl _⟩
  · have hpoint : d.add '.' = some (some { d with part := .point }) := by
      obtain ⟨part, _⟩ := d
      rcases hd with rfl | rfl <;> rfl
    obtain ⟨d', hpart, hreaches⟩ :=
      reaches_digits (d := { d with part := .point }) hds (by simp) (by simp)
    exact ⟨d', .inr (.inr hpart), .cons (step_number hpoint) hreaches⟩

theorem reaches_exponent {d : Digits}
    (hd : d.part = .zero ∨ d.part = .whole ∨ d.part = .fraction) {cs : List Char}
    (h : IsExponent cs) :
    ∃ d', d'.complete = true ∧ Reaches (.number d) cs (.number d') := by
  rcases h with rfl | ⟨sign, ds, rfl, hsign, hds⟩
  · refine ⟨d, ?_, .refl _⟩
    unfold Digits.complete
    rcases hd with hd | hd | hd <;> rw [hd]
  · have hmark : d.add 'e' = some (some { d with part := .mark }) := by
      obtain ⟨part, _⟩ := d
      rcases hd with rfl | rfl | rfl <;> rfl
    obtain ⟨d', hpart', hadd⟩ :
        ∃ d', d'.part = .markSign ∧ Digits.add { d with part := .mark } sign = some (some d') := by
      rcases hsign with rfl | rfl
      · exact ⟨_, rfl, rfl⟩
      · exact ⟨_, rfl, rfl⟩
    obtain ⟨d'', hpart, hreaches⟩ :=
      reaches_digits hds (by rw [hpart']; decide) (by rw [hpart']; decide)
    rw [hpart'] at hpart
    refine ⟨d'', ?_, .cons (step_number hmark) (.cons (step_number hadd) hreaches)⟩
    rw [Digits.complete, hpart]
    rfl

theorem Starts.reaches_magnitude {p : Pending} (hp : Starts p) {cs : List Char}
    (h : IsMagnitude cs) : ∃ d, d.complete = true ∧ Reaches p cs (.number d) := by
  obtain ⟨whole, fraction, exponent, rfl, hwhole, hfraction, hexponent⟩ := h
  obtain ⟨d, hpart, hreaches⟩ := hp.reaches_whole hwhole
  obtain ⟨d', hpart', hreaches'⟩ := reaches_fraction hpart hfraction
  obtain ⟨d'', hcomplete, hreaches''⟩ := reaches_exponent hpart' hexponent
  exact ⟨d'', hcomplete, hreaches.append (hreaches'.append hreaches'')⟩

theorem reaches_numeral {cs : List Char} (h : IsNumeral cs) :
    ∃ d, d.complete = true ∧ Reaches .nothing cs (.number d) := by
  rcases h with h | ⟨magnitude, rfl, h⟩
  · exact starts_nothing.reaches_magnitude h
  · obtain ⟨d, hsign, hstep⟩ : ∃ d : Digits, d.part = .sign ∧
        ∀ tokens, step ⟨tokens, .nothing⟩ '-' = some ⟨tokens, .number d⟩ :=
      ⟨_, rfl, fun _ => rfl⟩
    obtain ⟨d', hcomplete, hreaches⟩ := (starts_sign hsign).reaches_magnitude h
    exact ⟨d', hcomplete, .cons hstep hreaches⟩

theorem reaches_escapeChar (q : Quoted) (c : Char) :
    Reaches (.text q) (escapeChar c) (.text (q.add c)) := by
  by_cases hcontrol : c.toNat < 0x20
  · -- The control characters are few, and each one is written in a form of its own.
    obtain ⟨n, hn, rfl⟩ : ∃ n < 0x20, c = Char.ofNat n := ⟨c.toNat, hcontrol, by simp⟩
    intro tokens rest
    interval_cases n <;> rfl
  · unfold escapeChar
    split
    any_goals exact fun _ _ => rfl
    next hquote hslash _ _ _ _ _ =>
      rw [if_neg hcontrol]
      have hstep (tokens : List Token) :
          step ⟨tokens, .text q⟩ c = some ⟨tokens, .text (q.add c)⟩ := by
        simp only [step, if_neg hquote, if_neg hslash, if_neg hcontrol]
      exact .cons hstep (.refl _)

theorem reaches_escaped (q : Quoted) (cs : List Char) :
    Reaches (.text q) (cs.flatMap escapeChar) (.text (cs.foldl Quoted.add q)) := by
  induction cs generalizing q with
  | nil => exact .refl _
  | cons c cs ih =>
      rw [List.flatMap_cons, List.foldl_cons]
      exact (reaches_escapeChar q c).append (ih _)

theorem foldl_add (latest cs : List Char) (usable : Bool) :
    cs.foldl Quoted.add ⟨latest, usable, none⟩ = ⟨cs.reverse ++ latest, usable, none⟩ := by
  induction cs generalizing latest with
  | nil => rfl
  | cons c cs ih =>
      have hadd : Quoted.add ⟨latest, usable, none⟩ c = ⟨c :: latest, usable, none⟩ := by
        simp [Quoted.add, Quoted.settle]
      rw [List.foldl_cons, hadd, ih, List.reverse_cons, List.append_assoc, List.singleton_append]

theorem result_quoted (s : String) (tokens : List Token) (rest : List Char) :
    result ⟨tokens, .nothing⟩ ((quoted s).toList ++ rest) =
      result ⟨.text (some s) :: tokens, .nothing⟩ rest := by
  have hchars : (quoted s).toList ++ rest =
      '"' :: (s.toList.flatMap escapeChar ++ ('"' :: rest)) := by
    simp [quoted]
  have htext : (s.toList.foldl Quoted.add .start).token = .text (some s) := by
    rw [Quoted.start, foldl_add]
    simp [Quoted.token, Quoted.settle]
  have hbegin : step ⟨tokens, .nothing⟩ '"' = some ⟨tokens, .text .start⟩ := rfl
  have hend : step ⟨tokens, .text (s.toList.foldl Quoted.add .start)⟩ '"' =
      some ⟨.text (some s) :: tokens, .nothing⟩ := by
    simp only [step, if_true, htext]
  rw [hchars, result_cons hbegin, reaches_escaped, result_cons hend]

/-- Whether the text is empty or begins with what ends or separates values. -/
def Delimited (cs : List Char) : Prop := ∀ c ∈ cs.head?, c ∈ [',', ']', '\x7d']

theorem result_complete {d : Digits} (h : d.complete = true) (tokens : List Token)
    {rest : List Char} (hrest : Delimited rest) :
    result ⟨tokens, .number d⟩ rest = result ⟨.number d.numeral.value? :: tokens, .nothing⟩ rest := by
  cases rest with
  | nil =>
      simp only [result, run, Option.bind_some, finish, if_pos h]
  | cons c rest =>
      have hadd : d.add c = some none := by
        have hc := hrest c rfl
        simp only [List.mem_cons, List.not_mem_nil, or_false] at hc
        unfold Digits.add
        rcases hc with rfl | rfl | rfl <;> simp [h]
      have hstep : step ⟨tokens, .number d⟩ c =
          step ⟨.number d.numeral.value? :: tokens, .nothing⟩ c := by
        simp only [step, hadd]
      simp only [result, run, hstep]

/-- Whether a text is scanned to some tokens, wherever it stands before a delimiter. -/
def Scans (cs : List Char) (ts : List Token) : Prop :=
  ∀ tokens rest, Delimited rest →
    result ⟨tokens, .nothing⟩ (cs ++ rest) = result ⟨ts.reverse ++ tokens, .nothing⟩ rest

theorem Scans.tokens?_eq {cs : List Char} {ts : List Token} (h : Scans cs ts) :
    tokens? (String.ofList cs) = some ts := by
  have hresult := h [] [] (fun _ h => by cases h)
  rw [List.append_nil, List.append_nil] at hresult
  have hfinish : result ⟨ts.reverse, .nothing⟩ [] = some ts := by
    rw [result, run, Option.bind_some, finish, List.reverse_reverse]
  rw [tokens?, String.toList_ofList]
  exact hresult.trans hfinish

namespace Scans

variable {cs ds : List Char} {ts us : List Token}

theorem nil : Scans [] [] := fun _ _ _ => rfl

theorem separated (h : Scans cs ts) (h' : Scans ds us) :
    Scans (cs ++ ',' :: ds) (ts ++ .comma :: us) := by
  intro tokens rest hrest
  have hcomma : step ⟨ts.reverse ++ tokens, .nothing⟩ ',' =
      some ⟨.comma :: (ts.reverse ++ tokens), .nothing⟩ := rfl
  have hdelimited : Delimited (',' :: (ds ++ rest)) := by simp [Delimited]
  rw [List.append_assoc, List.cons_append, h _ _ hdelimited, result_cons hcomma, h' _ _ hrest]
  simp

theorem named (h : Scans cs ts) (name : String) :
    Scans ((quoted name).toList ++ ':' :: cs) (.text (some name) :: .colon :: ts) := by
  intro tokens rest hrest
  have hcolon : step ⟨.text (some name) :: tokens, .nothing⟩ ':' =
      some ⟨.colon :: .text (some name) :: tokens, .nothing⟩ := rfl
  rw [List.append_assoc, List.cons_append, result_quoted, result_cons hcolon, h _ _ hrest]
  simp

theorem enclosed (h : Scans cs ts) {first last : Char} {begins ends : Token}
    (hfirst : ∀ tokens, step ⟨tokens, .nothing⟩ first = some ⟨begins :: tokens, .nothing⟩)
    (hlast : ∀ tokens, step ⟨tokens, .nothing⟩ last = some ⟨ends :: tokens, .nothing⟩)
    (hends : last ∈ [',', ']', '\x7d']) :
    Scans (first :: (cs ++ [last])) (begins :: (ts ++ [ends])) := by
  intro tokens rest _
  have hdelimited : Delimited (last :: rest) := by simpa [Delimited] using hends
  rw [List.cons_append, result_cons (hfirst tokens), List.append_assoc, List.singleton_append,
    h _ _ hdelimited, result_cons (hlast _)]
  simp

end Scans

end Scan

theorem exists_scans_numberText (x : Binary64) : ∃ t, Scan.Scans (numberText x).toList [t] ∧
    if x.isFinite then ∃ y, t = .number y else t = .null := by
  by_cases hx : x.isFinite = true
  · obtain ⟨d, hcomplete, hreaches⟩ := Scan.reaches_numeral (isNumeral_numberText hx)
    refine ⟨.number d.numeral.value?, fun tokens rest hrest => ?_, ?_⟩
    · rw [hreaches, Scan.result_complete hcomplete tokens hrest]
      rfl
    · rw [if_pos hx]
      exact ⟨_, rfl⟩
  · simp only [numberText, if_neg hx]
    exact ⟨.null, fun _ _ _ => rfl, rfl⟩

def numberToken (x : Binary64) : Token :=
  ((tokens? (numberText x)).bind List.head?).getD .null

theorem numberToken_eq {x : Binary64} {t : Token} (h : Scan.Scans (numberText x).toList [t]) :
    numberToken x = t := by
  have htokens := h.tokens?_eq
  rw [String.ofList_toList] at htokens
  rw [numberToken, htokens]
  rfl

theorem scans_numberText (x : Binary64) : Scan.Scans (numberText x).toList [numberToken x] := by
  obtain ⟨t, ht, _⟩ := exists_scans_numberText x
  rw [numberToken_eq ht]
  exact ht

theorem numberToken_of_isFinite {x : Binary64} (h : x.isFinite = true) :
    ∃ y, numberToken x = .number y := by
  obtain ⟨t, ht, htoken⟩ := exists_scans_numberText x
  rw [if_pos h] at htoken
  rw [numberToken_eq ht]
  exact htoken

theorem numberToken_of_not_isFinite {x : Binary64} (h : ¬x.isFinite = true) :
    numberToken x = .null := by
  obtain ⟨t, ht, htoken⟩ := exists_scans_numberText x
  rw [if_neg h] at htoken
  rw [numberToken_eq ht]
  exact htoken

namespace Value

mutual

def tokens : Value → List Token
  | .null | .unusable => [.null]
  | .flag b => [.flag b]
  | .number x => [numberToken x]
  | .text s => [.text (some s)]
  | .array items => .openBracket :: (itemTokens items ++ [.closeBracket])
  | .object fields => .openBrace :: (fieldTokens fields ++ [.closeBrace])

def itemTokens : List Value → List Token
  | [] => []
  | [v] => v.tokens
  | v :: rest => v.tokens ++ .comma :: itemTokens rest

def fieldTokens : List (String × Value) → List Token
  | [] => []
  | [(name, v)] => .text (some name) :: .colon :: v.tokens
  | (name, v) :: rest => .text (some name) :: .colon :: (v.tokens ++ .comma :: fieldTokens rest)

end

theorem itemTokens_cons_cons (v w : Value) (rest : List Value) :
    itemTokens (v :: w :: rest) = v.tokens ++ .comma :: itemTokens (w :: rest) := rfl

theorem fieldTokens_cons_cons (name : String) (v : Value) (f : String × Value)
    (rest : List (String × Value)) :
    fieldTokens ((name, v) :: f :: rest) =
      .text (some name) :: .colon :: (v.tokens ++ .comma :: fieldTokens (f :: rest)) := rfl

mutual

theorem scans_compact (v : Value) : Scan.Scans v.compact.toList v.tokens := by
  match v with
  | .null | .unusable | .flag true | .flag false => exact fun _ _ _ => rfl
  | .number x => exact scans_numberText x
  | .text s =>
      intro tokens rest _
      exact Scan.result_quoted s tokens rest
  | .array items =>
      have hchars : (Value.array items).compact.toList =
          '[' :: ((compactItems items).toList ++ [']']) := by
        simp [compact]
      rw [hchars, tokens]
      exact (scans_compactItems items).enclosed (fun _ => rfl) (fun _ => rfl) (by simp)
  | .object fields =>
      have hchars : (Value.object fields).compact.toList =
          '\x7b' :: ((compactFields fields).toList ++ ['\x7d']) := by
        simp [compact]
      rw [hchars, tokens]
      exact (scans_compactFields fields).enclosed (fun _ => rfl) (fun _ => rfl) (by simp)

theorem scans_compactItems (items : List Value) :
    Scan.Scans (compactItems items).toList (itemTokens items) := by
  match items with
  | [] => exact .nil
  | [v] => exact scans_compact v
  | v :: w :: rest =>
      have hchars : (compactItems (v :: w :: rest)).toList =
          v.compact.toList ++ ',' :: (compactItems (w :: rest)).toList := by
        simp [compactItems]
      rw [hchars]
      exact (scans_compact v).separated (scans_compactItems (w :: rest))

theorem scans_compactFields (fields : List (String × Value)) :
    Scan.Scans (compactFields fields).toList (fieldTokens fields) := by
  match fields with
  | [] => exact .nil
  | [(name, v)] =>
      have hchars : (compactFields [(name, v)]).toList =
          (quoted name).toList ++ ':' :: v.compact.toList := by
        simp [compactFields]
      rw [hchars]
      exact (scans_compact v).named name
  | (name, v) :: f :: rest =>
      have hchars : (compactFields ((name, v) :: f :: rest)).toList =
          (quoted name).toList ++ ':' :: (v.compact.toList ++
            ',' :: (compactFields (f :: rest)).toList) := by
        simp [compactFields]
      rw [hchars]
      exact ((scans_compact v).separated (scans_compactFields (f :: rest))).named name

end

theorem tokens?_compact (v : Value) : tokens? v.compact = some v.tokens := by
  have h := (scans_compact v).tokens?_eq
  rw [String.ofList_toList] at h
  exact h

end Value

end KeyedMarkup.Json
