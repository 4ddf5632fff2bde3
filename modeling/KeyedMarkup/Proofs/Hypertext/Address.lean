import Mathlib.Data.List.TakeWhile
import KeyedMarkup.Keyed.Markup
import KeyedMarkup.Proofs.Hypertext.Permission

/-!
# Addresses as browsers read them

A schema compares what stands before the first colon of an address. A browser first drops the
control characters and spaces in front and every tab, line feed and carriage return, and it reads
the attribute as a whole, with the tokens of a list joined by spaces. If the protocols of a schema
are plain, no attribute of a sanitized tree has a scheme for the browser that is not listed.
-/

namespace KeyedMarkup.Hypertext

namespace Address

/-- The characters that a browser drops wherever they stand in an address. -/
def isBreak (c : Char) : Bool := c == '\t' || c == '\n' || c == '\r'

def isSchemeChar (c : Char) : Bool := c.isAlphanum || c == '+' || c == '-' || c == '.'

/-- An address as a browser reads it. -/
def readable (cs : List Char) : List Char := (cs.dropWhile (· ≤ ' ')).filter (!isBreak ·)

/-- The scheme of an address for a browser, in lower case: a letter and further scheme characters
up to the colon that comes next. -/
def scheme? (url : String) : Option String :=
  match (readable url.toList).takeWhile isSchemeChar,
    (readable url.toList).dropWhile isSchemeChar with
  | c :: cs, ':' :: _ =>
      if c.isAlpha then some (String.ofList ((c :: cs).map Char.toLower)) else none
  | _, _ => none

/-- Whether `name`, in which breaks may stand, comes before a colon after nothing but controls
and spaces. -/
def Opens (cs name : List Char) : Prop :=
  ∃ front rest, cs = front ++ (name ++ ':' :: rest) ∧ (∀ c ∈ front, c ≤ ' ') ∧
    ∀ c ∈ name, isSchemeChar c = true ∨ isBreak c = true

theorem opens_of_scheme? {url scheme : String} (h : scheme? url = some scheme) :
    ∃ name, Opens url.toList name ∧
      scheme = String.ofList ((name.filter (!isBreak ·)).map Char.toLower) := by
  unfold scheme? at h
  split at h
  next c cs rest hname hcolon =>
    have hread : readable url.toList = (c :: cs) ++ ':' :: rest := by
      rw [← hname, ← hcolon, List.takeWhile_append_dropWhile]
    obtain ⟨before, after, hcut, hbefore, hafter⟩ := List.filter_eq_append_iff.mp hread
    obtain ⟨breaks, rest', rfl, hbreaks, _, _⟩ := List.filter_eq_cons_iff.mp hafter
    refine ⟨before ++ breaks, ⟨url.toList.takeWhile (· ≤ ' '), rest', ?_, ?_, ?_⟩, ?_⟩
    · rw [List.append_assoc, ← hcut, List.takeWhile_append_dropWhile]
    · intro d hd
      simpa using List.mem_takeWhile_imp hd
    · intro d hd
      rcases List.mem_append.mp hd with hd | hd
      · by_cases hb : isBreak d = true
        · exact .inr hb
        · have hmem : d ∈ c :: cs := hbefore ▸ List.mem_filter.mpr ⟨hd, by simpa using hb⟩
          exact .inl (List.mem_takeWhile_imp (hname ▸ hmem))
      · exact .inr (by simpa using hbreaks d hd)
    · have hnone : breaks.filter (!isBreak ·) = [] :=
        List.filter_eq_nil_iff.mpr hbreaks
      rw [List.filter_append, hbefore, hnone, List.append_nil]
      split at h
      · exact (Option.some.inj h).symm
      · simp at h
  next => simp at h

theorem space_lt_of_isSchemeChar {c : Char} (h : isSchemeChar c = true) : ' ' < c := by
  have hcontrol : ∀ n < 33, isSchemeChar (Char.ofNat n) = false := by decide
  refine Char.not_le.mp fun hle => ?_
  have hlow : c.toNat < 33 := Nat.lt_succ_of_le hle
  rw [← Char.ofNat_toNat c, hcontrol _ hlow] at h
  cases h

theorem le_space_of_isBreak {c : Char} (h : isBreak c = true) : c ≤ ' ' := by
  simp only [isBreak, Bool.or_eq_true, beq_iff_eq] at h
  rcases h with (rfl | rfl) | rfl <;> decide

theorem ne_space_of_isSchemeChar_or_isBreak {c : Char} (h : isSchemeChar c = true ∨ isBreak c = true) :
    c ≠ ' ' := by
  rintro rfl
  revert h
  decide

/-- A scheme does not run across a space: it stands wholly before or wholly after. -/
theorem opens_append_space {cs ds name : List Char} (h : Opens (cs ++ ' ' :: ds) name) :
    Opens cs name ∨ Opens ds name := by
  obtain ⟨front, rest, hcs, hfront, hname⟩ := h
  have hspace : ' ' ∉ name := fun hmem => ne_space_of_isSchemeChar_or_isBreak (hname ' ' hmem) rfl
  rw [← List.append_assoc] at hcs
  rcases List.append_eq_append_iff.mp hcs with ⟨w, hw, hrest⟩ | ⟨w, hw, hrest⟩
  · -- the colon comes after the space, so the space is one of the characters in front
    right
    obtain ⟨w, rfl⟩ : ∃ w', w = ' ' :: w' := by
      cases w with
      | nil => simp at hrest
      | cons d w => exact ⟨w, by rw [(List.cons.inj hrest).1]⟩
    rcases List.append_eq_append_iff.mp hw with ⟨v, hv, hsplit⟩ | ⟨v, hv, hsplit⟩
    · exact absurd (by simp [hsplit]) hspace
    · cases v with
      | nil =>
          rw [List.nil_append] at hsplit
          exact absurd (hsplit ▸ List.mem_cons_self) hspace
      | cons d v =>
          obtain ⟨rfl, rfl⟩ := List.cons.inj hsplit
          refine ⟨v, rest, by simpa using hrest, fun c hc => hfront c ?_, hname⟩
          simp [hv, hc]
  · left
    obtain ⟨w, rfl⟩ : ∃ w', w = ':' :: w' := by
      cases w with
      | nil => simp at hrest
      | cons d w => exact ⟨w, by rw [(List.cons.inj hrest).1]⟩
    exact ⟨front, w, by simp [hw], hfront, hname⟩

theorem exists_token_opens {tokens : List String} {name : List Char}
    (h : Opens (" ".intercalate tokens).toList name) : ∃ t ∈ tokens, Opens t.toList name := by
  rw [String.toList_intercalate] at h
  induction tokens with
  | nil =>
      obtain ⟨front, rest, hcs, _⟩ := h
      simp at hcs
  | cons t ts ih =>
      cases ts with
      | nil => exact ⟨t, List.mem_cons_self, by simpa using h⟩
      | cons u us =>
          have hjoin : " ".toList.intercalate ((t :: u :: us).map String.toList) =
              t.toList ++ ' ' :: " ".toList.intercalate ((u :: us).map String.toList) := by
            simp
          rcases opens_append_space (hjoin ▸ h) with h | h
          · exact ⟨t, List.mem_cons_self, h⟩
          · obtain ⟨t', ht', h'⟩ := ih h
            exact ⟨t', List.mem_cons_of_mem _ ht', h'⟩

private theorem ne_delimiter {c : Char}
    (h : c ≤ ' ' ∨ isSchemeChar c = true ∨ isBreak c = true) :
    (c != ':' && c != '/' && c != '?' && c != '#') = true := by
  have hne (d : Char) (hd : ¬(d ≤ ' ' ∨ isSchemeChar d = true ∨ isBreak d = true)) : c ≠ d :=
    fun e => hd (e ▸ h)
  simp [hne ':' (by decide), hne '/' (by decide), hne '?' (by decide), hne '#' (by decide)]

/-- The colon that a browser finds is the one that ends the protocol of the address. -/
theorem protocol?_of_opens {url : String} {name : List Char} (h : Opens url.toList name) :
    ∃ front, (∀ c ∈ front, c ≤ ' ') ∧
      Schema.protocol? url = some (String.ofList (front ++ name)) := by
  obtain ⟨front, rest, hcs, hfront, hname⟩ := h
  refine ⟨front, hfront, ?_⟩
  rw [← List.append_assoc] at hcs
  have hplain : ∀ c ∈ front ++ name, (c != ':' && c != '/' && c != '?' && c != '#') = true := by
    intro c hc
    rcases List.mem_append.mp hc with hc | hc
    · exact ne_delimiter (.inl (hfront c hc))
    · exact ne_delimiter (.inr (hname c hc))
  have hhead : url.toList.takeWhile (fun c => c != ':' && c != '/' && c != '?' && c != '#') =
      front ++ name := by
    rw [hcs, List.takeWhile_append_of_pos hplain]
    simp
  have hdrop : url.toList.drop (front ++ name).length = ':' :: rest := by
    rw [hcs, List.drop_left]
  simp only [Schema.protocol?, hhead, hdrop]

end Address

namespace Schema

variable (s : Schema)

def isProtocolChar (c : Char) : Bool := c.isLower || c.isDigit || c == '+' || c == '-' || c == '.'

/-- Whether all listed protocols are written in lower-case letters, digits, `+`, `-` and `.`. -/
def PlainProtocols : Prop :=
  ∀ e ∈ s.protocols.entries, ∀ p ∈ e.2.toList, p.toList.all isProtocolChar = true

instance : Decidable s.PlainProtocols :=
  inferInstanceAs (Decidable (∀ e ∈ s.protocols.entries, ∀ p ∈ e.2.toList, _))

theorem isSchemeChar_of_toLower {c : Char} (h : isProtocolChar c.toLower = true) :
    Address.isSchemeChar c = true := by
  have halpha : c.isAlpha = (c.isUpper || c.isLower) := rfl
  by_cases hu : c.isUpper = true
  · simp [Address.isSchemeChar, Char.isAlphanum, halpha, hu]
  · have hsame : c.toLower = c := dif_neg fun hupper => hu (decide_eq_true hupper)
    rw [hsame] at h
    simp only [isProtocolChar, Bool.or_eq_true] at h
    simp only [Address.isSchemeChar, Char.isAlphanum, halpha, Bool.or_eq_true]
    grind

variable {s}

/-- An address that passes has no scheme for a browser but a listed one. -/
theorem mem_of_allowsUrl (hs : s.PlainProtocols) {key url : String} {allowed : Names}
    (hallowed : s.protocols.get? key = some allowed)
    (hurl : s.allowsUrl key url = true) {name : List Char}
    (hopens : Address.Opens url.toList name) :
    String.ofList ((name.filter (!Address.isBreak ·)).map Char.toLower) ∈ allowed.toList := by
  obtain ⟨front, hfront, hprotocol⟩ := Address.protocol?_of_opens hopens
  have hlisted : String.ofList ((front ++ name).map Char.toLower) ∈ allowed.toList := by
    rw [allowsUrl, hallowed, hprotocol] at hurl
    simpa [String.map_eq_internal] using hurl
  have hchars : ∀ c ∈ front ++ name, Address.isSchemeChar c = true := by
    intro c hc
    have hplain := hs _ (Dict.mem_entries_of_get? hallowed) _ hlisted
    rw [String.toList_ofList, List.all_map, List.all_eq_true] at hplain
    exact isSchemeChar_of_toLower (hplain c hc)
  have hnone : front = [] := by
    refine List.eq_nil_iff_forall_not_mem.mpr fun c hc => ?_
    have hlt := Address.space_lt_of_isSchemeChar (hchars c (List.mem_append_left _ hc))
    exact absurd (hfront c hc) (Char.not_le.mpr hlt)
  have hall : name.filter (!Address.isBreak ·) = name := by
    refine List.filter_eq_self.mpr fun c hc => ?_
    have hlt := Address.space_lt_of_isSchemeChar (hchars c (List.mem_append_right _ hc))
    rw [Bool.not_eq_true', ← Bool.not_eq_true]
    exact fun hb => Char.not_le.mpr hlt (Address.le_space_of_isBreak hb)
  rw [hall]
  simpa [hnone] using hlisted

end Schema

namespace Node

/-- What opens a written attribute opens one of the texts in its value. -/
theorem exists_strings_opens {value : Property} {text : String}
    (hnumber : ∀ x, value ≠ .number x) (htext : Keyed.Markup.valueText value = some text)
    {name : List Char} (h : Address.Opens text.toList name) :
    ∃ t ∈ value.strings, Address.Opens t.toList name := by
  cases value with
  | flag set =>
      obtain ⟨front, rest, hcs, _⟩ := h
      cases set
      · simp [Keyed.Markup.valueText] at htext
      · obtain rfl := Option.some.inj htext
        simp at hcs
  | number x => exact absurd rfl (hnumber x)
  | text t =>
      obtain rfl := Option.some.inj htext
      exact ⟨t, List.mem_cons_self, h⟩
  | tokens ts =>
      cases ts with
      | nil => simp [Keyed.Markup.valueText] at htext
      | cons t ts =>
          obtain rfl := Option.some.inj htext
          exact Address.exists_token_opens h

/-- Whatever scheme a browser reads from a written attribute of a sanitized tree is listed. -/
theorem scheme_listed_of_sanitize {s : Schema} (hs : s.PlainProtocols) (h : Node) {e : Element}
    (he : .element e ∈ (h.sanitize s).descendants) {name : String} {value : Property}
    (hvalue : (name, value) ∈ e.properties.entries) (hnumber : ∀ x, value ≠ .number x)
    {allowed : Names} (hallowed : s.protocols.get? name = some allowed)
    (hclobber : name ∉ s.clobber.toList) {text : String}
    (htext : Keyed.Markup.valueText value = some text) {scheme : String}
    (hscheme : Address.scheme? text = some scheme) : scheme ∈ allowed.toList := by
  obtain ⟨opening, hopens, rfl⟩ := Address.opens_of_scheme? hscheme
  obtain ⟨t, ht, hopens⟩ := exists_strings_opens hnumber htext hopens
  obtain ⟨_, _, hproperties⟩ := clean_permitted s h _ he
  have hurl := (hproperties name value hvalue).2.1 hclobber t ht
  exact s.mem_of_allowsUrl hs hallowed hurl hopens

def linkSchema : Schema :=
  { Schema.github with tags := .ofList ["a"], attributes := .ofList [("a", .ofList ["href"])] }

/-- A link whose address is a list of tokens, of which a browser does not see the first. -/
def tokenLink : Element :=
  ⟨"a", .ofList [("href", .tokens ["\t", "HTTPS://example.org"])], [.text "x"], some .link⟩

theorem scheme_listed_tokenLink :
    Address.scheme? "\t HTTPS://example.org" = some "https" ∧
      "https" ∈ (Names.ofList ["http", "https", "mailto"]).toList := by
  have hplain : linkSchema.PlainProtocols := by decide +kernel
  have hclean : sanitize linkSchema (.root [.element tokenLink]) = .root [.element tokenLink] := by
    with_unfolding_all rfl
  have hlink : .element tokenLink ∈
      (sanitize linkSchema (.root [.element tokenLink])).descendants := by
    rw [hclean]
    exact List.mem_cons_self
  have hvalue : ("href", .tokens ["\t", "HTTPS://example.org"]) ∈ tokenLink.properties.entries := by
    decide +kernel
  have hallowed : linkSchema.protocols.get? "href" =
      some (.ofList ["http", "https", "mailto"]) := by
    decide +kernel
  have hclobber : "href" ∉ linkSchema.clobber.toList := by decide +kernel
  have htext : Keyed.Markup.valueText (.tokens ["\t", "HTTPS://example.org"]) =
      some "\t HTTPS://example.org" := by
    decide +kernel
  have hscheme : Address.scheme? "\t HTTPS://example.org" = some "https" := by
    decide +kernel
  exact ⟨hscheme, scheme_listed_of_sanitize hplain _ hlink hvalue nofun hallowed hclobber htext
    hscheme⟩

end Node

end KeyedMarkup.Hypertext
