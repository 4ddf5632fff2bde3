import KeyedMarkup.Hypertext.Sanitize

/-!
# Sanitizing only deletes

The content of a tree is a stream of tokens in document order. In which elements a token stands
can be told from the stream alone, since a closing token closes the nearest element that is open.
Sanitizing takes away the tokens in stripped elements, the raw HTML, and the two tokens of every
other element that is not allowed. What is left stays as it was and in its order, and each token
stands in the same elements as before, those aside that are gone.
-/

namespace KeyedMarkup.Hypertext

/-- What is met on the way through a tree, attributes apart. -/
inductive Token where
  | opening (tag : String) (kind : Option Doc.Kind)
  | closing
  | text (value : String)
  | raw (value : String)
deriving DecidableEq

namespace Node

mutual

/-- The tokens of a node; a root has none of its own. -/
def tokens : Node → List Token
  | .root children => tokensOfAll children
  | .element ⟨tag, _, children, kind⟩ =>
      .opening tag kind :: (tokensOfAll children ++ [.closing])
  | .text value => [.text value]
  | .raw value => [.raw value]

def tokensOfAll : List Node → List Token
  | [] => []
  | n :: rest => n.tokens ++ tokensOfAll rest

end

theorem tokensOfAll_append (ms ns : List Node) :
    tokensOfAll (ms ++ ns) = tokensOfAll ms ++ tokensOfAll ns := by
  induction ms with
  | nil => rfl
  | cons m ms ih => simp only [List.cons_append, tokensOfAll, ih, List.append_assoc]

end Node

/-- A token with the tags of the elements that it stands in, nearest first. The tokens that open
and close an element stand in it. -/
structure Token.Placed where
  within : List String
  token : Token
deriving DecidableEq

namespace Token

/-- The tokens of a stream with their elements, if the given ones are open before it. -/
def placed (opened : List String) : List Token → List Placed
  | [] => []
  | .opening tag kind :: rest =>
      ⟨tag :: opened, .opening tag kind⟩ :: placed (tag :: opened) rest
  | .closing :: rest => ⟨opened, .closing⟩ :: placed opened.tail rest
  | .text value :: rest => ⟨opened, .text value⟩ :: placed opened rest
  | .raw value :: rest => ⟨opened, .raw value⟩ :: placed opened rest

theorem map_token_placed (opened : List String) (ts : List Token) :
    (placed opened ts).map (·.token) = ts := by
  induction ts generalizing opened with
  | nil => rfl
  | cons t ts ih => cases t <;> simp only [placed, List.map_cons, ih]

end Token

namespace Schema

variable (s : Schema)

/-- Whether a token is taken away: if it stands in a stripped element, if it is raw HTML, or if it
opens or closes an element that is neither allowed nor stripped. -/
def removes (p : Token.Placed) : Bool :=
  p.within.any s.strip.contains ||
    match p.token with
    | .opening _ _ | .closing =>
        p.within.head?.any fun tag => !s.tags.contains tag && !s.strip.contains tag
    | .text _ => false
    | .raw _ => true

/-- A token of the tree as it stands among the elements that stay. -/
def narrowed (p : Token.Placed) : Token.Placed := ⟨p.within.filter s.tags.contains, p.token⟩

def remaining (ps : List Token.Placed) : List Token.Placed :=
  (ps.filter fun p => !s.removes p).map s.narrowed

theorem remaining_append (ps qs : List Token.Placed) :
    s.remaining (ps ++ qs) = s.remaining ps ++ s.remaining qs := by
  simp only [remaining, List.filter_append, List.map_append]

theorem remaining_cons_of_removes {p : Token.Placed} (h : s.removes p = true)
    (ps : List Token.Placed) : s.remaining (p :: ps) = s.remaining ps := by
  simp [remaining, h]

theorem remaining_cons_of_not_removes {p : Token.Placed} (h : s.removes p = false)
    (ps : List Token.Placed) : s.remaining (p :: ps) = s.narrowed p :: s.remaining ps := by
  simp [remaining, h]

theorem remaining_eq_nil {ps : List Token.Placed} (h : ∀ p ∈ ps, s.removes p = true) :
    s.remaining ps = [] := by
  simp only [remaining, List.map_eq_nil_iff, List.filter_eq_nil_iff]
  intro p hp
  simp [h p hp]

end Schema

namespace Node

open Token

mutual

/-- After the tokens of a node the same elements are open as before. -/
theorem placed_tokens_append (n : Node) (opened : List String) (rest : List Token) :
    placed opened (n.tokens ++ rest) = placed opened n.tokens ++ placed opened rest := by
  cases n with
  | root children => exact placed_tokensOfAll_append children opened rest
  | text value => rfl
  | raw value => rfl
  | element e =>
      obtain ⟨tag, properties, children, kind⟩ := e
      have hinner := placed_tokensOfAll_append children (tag :: opened)
      rw [tokens, List.cons_append, List.append_assoc, List.singleton_append, placed, placed,
        hinner, hinner, List.cons_append, List.append_assoc]
      rfl

theorem placed_tokensOfAll_append (ns : List Node) (opened : List String) (rest : List Token) :
    placed opened (tokensOfAll ns ++ rest) =
      placed opened (tokensOfAll ns) ++ placed opened rest := by
  cases ns with
  | nil => rfl
  | cons n ns =>
      rw [tokensOfAll, List.append_assoc, placed_tokens_append n, placed_tokens_append n,
        placed_tokensOfAll_append ns, List.append_assoc]

end

theorem placed_tokens_element (opened : List String) (e : Element) :
    placed opened (tokens (.element e)) =
      ⟨e.tag :: opened, .opening e.tag e.kind⟩ ::
        (placed (e.tag :: opened) (tokensOfAll e.children) ++ [⟨e.tag :: opened, .closing⟩]) := by
  obtain ⟨tag, properties, children, kind⟩ := e
  rw [tokens, placed, placed_tokensOfAll_append]
  rfl

mutual

theorem suffix_within_tokens (n : Node) (opened : List String) :
    ∀ p ∈ placed opened n.tokens, opened <:+ p.within := by
  cases n with
  | root children => exact suffix_within_tokensOfAll children opened
  | text value => simp [tokens, placed]
  | raw value => simp [tokens, placed]
  | element e =>
      obtain ⟨tag, properties, children, kind⟩ := e
      have hopened : opened <:+ tag :: opened := List.suffix_cons tag opened
      rw [placed_tokens_element, List.forall_mem_cons, List.forall_mem_append]
      refine ⟨hopened, ?_, ?_⟩
      · intro p hp
        exact hopened.trans (suffix_within_tokensOfAll children (tag :: opened) p hp)
      · simp

theorem suffix_within_tokensOfAll (ns : List Node) (opened : List String) :
    ∀ p ∈ placed opened (tokensOfAll ns), opened <:+ p.within := by
  cases ns with
  | nil => exact nofun
  | cons n rest =>
      rw [tokensOfAll, placed_tokens_append, List.forall_mem_append]
      exact ⟨suffix_within_tokens n opened, suffix_within_tokensOfAll rest opened⟩

end

variable (s : Schema)

theorem remaining_of_stripped {e : Element} (h : e.tag ∈ s.strip.toList) (opened : List String) :
    s.remaining (placed opened (tokens (.element e))) = [] := by
  have hremoved {p : Placed} (hp : e.tag :: opened <:+ p.within) : s.removes p = true := by
    have hmem : e.tag ∈ p.within := hp.subset List.mem_cons_self
    rw [Schema.removes, Bool.or_eq_true, List.any_eq_true]
    exact .inl ⟨e.tag, hmem, Names.contains_iff.mpr h⟩
  apply s.remaining_eq_nil
  rw [placed_tokens_element, List.forall_mem_cons, List.forall_mem_append]
  refine ⟨hremoved List.suffix_rfl, ?_, ?_⟩
  · intro p hp
    exact hremoved (suffix_within_tokensOfAll e.children (e.tag :: opened) p hp)
  · simpa using hremoved List.suffix_rfl

/-- The tokens of an element that is not stripped stay exactly if its tag is allowed. -/
theorem remaining_element {opened : List String} {e : Element}
    (hopened : ∀ tag ∈ e.tag :: opened, tag ∉ s.strip.toList) :
    s.remaining (placed opened (tokens (.element e))) =
      let content := s.remaining (placed (e.tag :: opened) (tokensOfAll e.children))
      let within := opened.filter s.tags.contains
      if s.tags.contains e.tag then
        ⟨e.tag :: within, .opening e.tag e.kind⟩ :: (content ++ [⟨e.tag :: within, .closing⟩])
      else content := by
  have hany : (e.tag :: opened).any s.strip.contains = false := by
    rw [List.any_eq_false]
    intro tag htag
    simpa using hopened tag htag
  have hstrip : s.strip.contains e.tag = false := by
    rw [Bool.eq_false_iff, Ne, Names.contains_iff]
    exact hopened e.tag List.mem_cons_self
  rw [placed_tokens_element]
  cases htag : s.tags.contains e.tag with
  | true =>
      rw [s.remaining_cons_of_not_removes, s.remaining_append, s.remaining_cons_of_not_removes]
      · simp [Schema.narrowed, Schema.remaining, htag]
      · simp [Schema.removes, hany, htag]
      · simp [Schema.removes, hany, htag]
  | false =>
      rw [s.remaining_cons_of_removes, s.remaining_append, s.remaining_cons_of_removes]
      · simp [Schema.remaining]
      · simp [Schema.removes, htag, hstrip]
      · simp [Schema.removes, htag, hstrip]

mutual

theorem placed_clean (n : Node) (opened : List String)
    (hopened : ∀ tag ∈ opened, tag ∉ s.strip.toList) :
    placed (opened.filter s.tags.contains) (tokensOfAll (clean s n)) =
      s.remaining (placed opened n.tokens) := by
  have hany : opened.any s.strip.contains = false := by
    rw [List.any_eq_false]
    intro tag htag
    simpa using hopened tag htag
  cases n with
  | root children => exact placed_cleanAll children opened hopened
  | text value => simp [clean, tokens, tokensOfAll, placed, Schema.remaining, Schema.removes,
      Schema.narrowed, hany]
  | raw value => simp [clean, tokens, tokensOfAll, placed, Schema.remaining, Schema.removes]
  | element e =>
      obtain ⟨tag, properties, children, kind⟩ := e
      by_cases hstrip : tag ∈ s.strip.toList
      · rw [remaining_of_stripped s hstrip, clean, if_pos (Names.contains_iff.mpr hstrip)]
        rfl
      · have hopened' : ∀ t ∈ tag :: opened, t ∉ s.strip.toList :=
          List.forall_mem_cons.mpr ⟨hstrip, hopened⟩
        have hcontent := placed_cleanAll children (tag :: opened) hopened'
        rw [remaining_element s hopened', clean, if_neg (by simpa using hstrip)]
        cases htag : s.tags.contains tag with
        | true =>
            rw [List.filter_cons_of_pos htag] at hcontent
            rw [if_pos rfl, tokensOfAll, tokensOfAll, List.append_nil, placed_tokens_element,
              ← hcontent]
            rfl
        | false =>
            rw [List.filter_cons_of_neg (by simp [htag])] at hcontent
            exact hcontent

theorem placed_cleanAll (ns : List Node) (opened : List String)
    (hopened : ∀ tag ∈ opened, tag ∉ s.strip.toList) :
    placed (opened.filter s.tags.contains) (tokensOfAll (cleanAll s ns)) =
      s.remaining (placed opened (tokensOfAll ns)) := by
  cases ns with
  | nil => rfl
  | cons n rest =>
      rw [cleanAll, tokensOfAll_append, placed_tokensOfAll_append, placed_clean n opened hopened,
        placed_cleanAll rest opened hopened, tokensOfAll, placed_tokens_append,
        s.remaining_append]

end

/-- The tokens of a sanitized tree are those of the tree without the removed ones, and each stands
in the elements that it stood in before and that stay. -/
theorem tokens_sanitize (h : Node) :
    (h.sanitize s).tokens =
        ((placed [] h.tokens).filter fun p => !s.removes p).map (·.token) ∧
      placed [] (h.sanitize s).tokens =
        ((placed [] h.tokens).filter fun p => !s.removes p).map s.narrowed := by
  have hplaced : placed [] (h.sanitize s).tokens = s.remaining (placed [] h.tokens) :=
    placed_clean s h [] nofun
  refine ⟨?_, hplaced⟩
  rw [← map_token_placed [] (h.sanitize s).tokens, hplaced, Schema.remaining, List.map_map]
  rfl

end Node

end KeyedMarkup.Hypertext
