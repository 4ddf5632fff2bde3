import KeyedMarkup.Proofs.Doc.Tables
import KeyedMarkup.Proofs.Hypertext.Preservation
import KeyedMarkup.Proofs.Hypertext.Repetition
import KeyedMarkup.Proofs.Keyed.Numbers
import KeyedMarkup.Proofs.Number.Whole
import KeyedMarkup.Proofs.Render.Depth

/-!
# Numbered lists

The number of the first item of a list goes through a number of the format, the properties of a
node and the attributes of two elements, and is at last written in decimal digits again. Below
10 ^ 15 none of it is lost, and only the number one, from which a list counts anyway, is left out.
-/

namespace KeyedMarkup

namespace Doc

/-- Balanced events leave the innermost node what it is, its content apart. -/
theorem Builder.exists_fills_of_nested {events : List Event} (h : Nested events) (b : Builder) :
    ∃ added, Fills added b (b.run events) := by
  induction h generalizing b with
  | nil => exact ⟨[], .refl b⟩
  | @leaf e rest he _ ih =>
      obtain ⟨added, hfills⟩ := ih (b.step e)
      exact ⟨[] ++ added, (Fills.leaf he b).trans hfills⟩
  | @pair tag body rest _ _ ihbody ihrest =>
      obtain ⟨inner, hbody⟩ := ihbody (b.openTag tag)
      obtain ⟨added, hrest⟩ := ihrest ((b.openTag tag).run body).stop
      rw [run_pair]
      exact ⟨_, hbody.stop.trans hrest⟩

theorem Node.ofEvents_list (start : Option Nat) {content : List Event} (h : Balanced content) :
    ∃ value items, ofEvents (.start (.list start) :: content ++ [.stop]) =
      .parent .root [⟨.list, listProperties start, value, items⟩] := by
  let opened : Builder := Builder.start.openTag (.list start)
  obtain ⟨added, hfills⟩ := Builder.exists_fills_of_nested h.nested opened
  obtain ⟨outer, below, hstop, houter, hbelow⟩ := hfills.exists_stop
  obtain rfl : below = [] := List.forall₂_nil_left_iff.mp hbelow
  obtain rfl : outer = .root := houter.same nofun
  have hkind : (opened.run content).top.kind = .list := hfills.kind
  have hproperties : (opened.run content).top.properties = listProperties start :=
    hfills.properties nofun
  refine ⟨(opened.run content).top.value, (opened.run content).top.latest.reverse, ?_⟩
  rw [ofEvents, Builder.run_pair, hstop, OpenNode.close_of_isPlain (by rw [hkind]; rfl), ← hkind,
    ← hproperties]
  rfl

end Doc

namespace Hypertext.Convert

def listTag (start : Option Nat) : String := if start.isSome then "ol" else "ul"

theorem listTag_eq (start : Option Nat) : listTag start = "ol" ∨ listTag start = "ul" := by
  cases start with
  | none => exact .inr rfl
  | some n => exact .inl rfl

def listAttributes : Option Nat → Properties
  | some n => if n = 1 then .empty else .ofList [("start", .number (.ofNat n))]
  | none => .empty

theorem flag?_listProperties (start : Option Nat) :
    (Doc.listProperties start).flag? "ordered" = some start.isSome := by
  cases start <;>
    simp [Doc.listProperties, Dict.flag?, Dict.ofList, Dict.insertAll, Dict.get?_insert,
      Property.flag?]

theorem number?_listProperties (start : Option Nat) :
    (Doc.listProperties start).number? "start" = start.map Binary64.ofNat := by
  cases start with
  | none => rfl
  | some n =>
      simp [Doc.listProperties, Dict.number?, Dict.ofList, Dict.insertAll, Dict.get?_insert,
        Property.number?]

theorem filter_listProperties (start : Option Nat) :
    ((Doc.listProperties start).filter fun name _ =>
      !(["ordered", "start", "spread"].contains name)) = .empty := by
  apply Dict.ext
  rw [Dict.filter, Dict.empty, List.filter_eq_nil_iff]
  intro e he
  rcases List.mem_cons.mp (Dict.mem_ofList he) with rfl | hnumber
  · simp
  · obtain ⟨n, -, rfl⟩ : ∃ n ∈ start, ("start", Property.number (.ofNat n)) = e := by
      simpa using hnumber
    simp

theorem one_list (options : ConvertOptions) {start : Option Nat} (hstart : ∀ n ∈ start, n < 2 ^ 53)
    (value : Option String) (items : List Doc.Node) :
    one options ⟨.list, Doc.listProperties start, value, items⟩ =
      [.element ⟨listTag start, listAttributes start, looseLines (all options items),
        some .list⟩] := by
  rw [one, listElement, elementOf, flag?_listProperties, number?_listProperties,
    filter_listProperties]
  cases start with
  | none => rfl
  | some n =>
      let bare : Element := ⟨"ol", .empty, looseLines (all options items), some .list⟩
      show [Node.element (if (Binary64.ofNat n).awayFromOne then
        { bare with properties := .ofList [("start", .number (.ofNat n))] } else bare)] = _
      have haway := Binary64.awayFromOne_ofNat (hstart n rfl)
      by_cases hn : n = 1
      · rw [if_neg (mt haway.mp (not_not.mpr hn)), listAttributes, if_pos hn]
        rfl
      · rw [if_pos (haway.mpr hn), listAttributes, if_neg hn]
        rfl

theorem mem_listAttributes {start : Option Nat} {e : String × Property}
    (h : e ∈ (listAttributes start).entries) : ∃ n, e = ("start", .number (.ofNat n)) := by
  cases start with
  | none => exact absurd h List.not_mem_nil
  | some n =>
      rw [listAttributes] at h
      split at h
      · exact absurd h List.not_mem_nil
      · exact ⟨n, List.mem_singleton.mp (Dict.mem_ofList h)⟩

end Hypertext.Convert

open Hypertext.Convert (listTag listTag_eq listAttributes mem_listAttributes)

namespace Hypertext.Schema

theorem lists_start_github (tag : String) : Schema.github.Lists tag "start" :=
  .inr ((listsUnder_iff _ _ _).mpr (by decide +kernel))

theorem ExtendsGithub.clean_list {s : Schema} (hs : s.ExtendsGithub) (start : Option Nat)
    (content : List Node) :
    Node.clean s (.element ⟨listTag start, listAttributes start, content, some .list⟩) =
      [.element ⟨listTag start, listAttributes start, Node.cleanAll s content, some .list⟩] := by
  have hrejects : s.rejects (listTag start) = false := by
    rcases listTag_eq start with h | h <;> exact h ▸ hs.rejects (by decide)
  obtain ⟨hstrip, htag⟩ := Bool.or_eq_false_iff.mp hrejects
  have hattributes : s.cleanProperties (listTag start) (listAttributes start) =
      listAttributes start := by
    rw [cleanProperties_eq_self_iff]
    intro name value hmem
    obtain ⟨n, hn⟩ := mem_listAttributes hmem
    obtain ⟨rfl, rfl⟩ := Prod.mk.inj hn
    exact ⟨hs.within.attributes _ _ (lists_start_github _), nofun, fun _ => nofun⟩
  have hallowed : listTag start ∈ s.tags.toList := by simpa using htag
  have hkept : listTag start ∉ s.strip.toList := by
    rw [← Names.contains_iff, hstrip]
    exact Bool.false_ne_true
  rw [Node.clean_element_of_allowed s hallowed hkept, hattributes]

end Hypertext.Schema

namespace Render

open Keyed (markupOfAll)
open Keyed.Markup

theorem exists_prepare_list {sanitizing : Sanitizing}
    (hsanitizing : ∀ s ∈ sanitizing.schema?, s.ExtendsGithub)
    (convert : Hypertext.ConvertOptions) {start : Option Nat} (hstart : ∀ n ∈ start, n < 2 ^ 53)
    (value : Option String) (items : List Doc.Node) :
    ∃ content, prepare (.parent .root [⟨.list, Doc.listProperties start, value, items⟩])
        sanitizing convert =
      .root [.element ⟨listTag start, listAttributes start, content, some .list⟩] := by
  obtain ⟨content, hone⟩ : ∃ content, Hypertext.Convert.one convert
      ⟨.list, Doc.listProperties start, value, items⟩ =
      [.element ⟨listTag start, listAttributes start, content, some .list⟩] :=
    ⟨_, Hypertext.Convert.one_list convert hstart value items⟩
  have hroot : Hypertext.ofDoc convert
      (.parent .root [⟨.list, Doc.listProperties start, value, items⟩]) =
      .root [.element ⟨listTag start, listAttributes start, content, some .list⟩] := by
    rw [Hypertext.ofDoc, Doc.Node.parent, Hypertext.Convert.one, Hypertext.Convert.all, hone]
    rfl
  unfold prepare
  rw [hroot]
  cases hschema : sanitizing.schema? with
  | none => exact ⟨content, rfl⟩
  | some s =>
      refine ⟨Hypertext.Node.cleanAll s content, ?_⟩
      dsimp only
      rw [Hypertext.Node.sanitize, Hypertext.Node.clean, Hypertext.Node.cleanAll_singleton,
        (hsanitizing s hschema).clean_list]

def listOpening : Option Nat → String
  | some n => if n = 1 then "<ol>" else "<ol start=\"" ++ toString n ++ "\">"
  | none => "<ul>"

theorem attributesText_start {n : Nat} (h : n < 10 ^ 15) :
    attributesText (.ofList [("start", .number (.ofNat n))]) =
      " start=\"" ++ toString n ++ "\"" := by
  rw [← Binary64.markupText_ofNat h, ← escape_markupText]
  rfl

theorem listOpening_eq {start : Option Nat} (hstart : ∀ n ∈ start, n < 10 ^ 15) :
    listOpening start = "<" ++ listTag start ++ attributesText (listAttributes start) ++ ">" := by
  cases start with
  | none => rfl
  | some n =>
      rw [listAttributes, listOpening]
      split
      · rfl
      · rw [attributesText_start (hstart n rfl)]
        apply String.toList_injective
        simp [listTag]

theorem markup_list {start : Option Nat} (hstart : ∀ n ∈ start, n < 10 ^ 15) (key : Option String)
    (children : List Keyed.Node) :
    Keyed.Element.markup ⟨listTag start, key, listAttributes start, children⟩ =
      listOpening start ++ markupOfAll children ++ "</" ++ listTag start ++ ">" := by
  have hvoid : voidTags.contains (listTag start) = false := by
    rcases listTag_eq start with h | h <;> rw [h] <;> decide
  rw [Keyed.Element.markup, hvoid, listOpening_eq hstart]
  rfl

variable {o : Options}

/-- Without overrides a list with balanced events is rendered as the only element of its container,
and its number, if it is not one, stands in the opening tag in decimal digits. Sanitizing by
GitHub's schema or one that extends it, or not at all, makes no difference to that. -/
theorem markup_render_list (h : o.IsPlain)
    (hsanitizing : ∀ s ∈ o.sanitizing.schema?, s.ExtendsGithub) {start : Option Nat}
    (hstart : ∀ n ∈ start, n < 10 ^ 15) {content : List Doc.Event}
    (hcontent : Doc.Balanced content) {e : Keyed.Element}
    (he : (render o (.ofEvents (.start (.list start) :: content ++ [.stop]))).outcome = .ok e) :
    ∃ list : Keyed.Element, e.children = [.element list] ∧ list.tag = listTag start ∧
      list.markup =
        listOpening start ++ markupOfAll list.children ++ "</" ++ listTag start ++ ">" ∧
      e.markup = "<div>" ++ list.markup ++ "</div>" := by
  have hexact : ∀ n ∈ start, n < 2 ^ 53 := fun n hn => (hstart n hn).trans (by decide)
  obtain ⟨value, items, htree⟩ := Doc.Node.ofEvents_list start hcontent
  rw [htree] at he
  obtain ⟨children, hprepared⟩ := exists_prepare_list hsanitizing o.convert hexact value items
  have hkeyed := eq_keyed_of_render h he
  rw [hprepared] at hkeyed
  let list : Keyed.Element := ⟨listTag start, some (keyAt o.keyPrefix [0]), listAttributes start,
    keyedAll o.keyPrefix [0] 0 children⟩
  obtain rfl : e = ⟨"div", some (keyAt o.keyPrefix []), .empty, [.element list]⟩ :=
    Keyed.Node.element.inj hkeyed
  refine ⟨list, rfl, rfl, markup_list hstart _ _, ?_⟩
  have hplain : attributesText .empty = "" := rfl
  rw [Keyed.Element.markup, if_neg (by decide), hplain, markupOfAll, markupOfAll,
    String.append_empty, Keyed.Node.markup]
  apply String.toList_injective
  simp

def nestedItems : List Doc.Event :=
  [.start .item, .text "a", .stop, .start .item, .start (.list (some 1)), .start .item, .text "b",
    .stop, .stop, .stop]

open Doc in
theorem balanced_nestedItems : Balanced nestedItems := by
  apply (closes_start _ _ 0).mpr
  apply (closes_leaf rfl _ 1).mpr
  apply (closes_stop _ 0).mpr
  apply (closes_start _ _ 0).mpr
  apply (closes_start _ _ 1).mpr
  apply (closes_start _ _ 2).mpr
  apply (closes_leaf rfl _ 3).mpr
  apply (closes_stop _ 2).mpr
  apply (closes_stop _ 1).mpr
  exact (closes_stop _ 0).mpr closes_nil

theorem markup_render_list_nestedItems :
    ∃ e list : Keyed.Element,
      (render {} (.ofEvents (.start (.list (some 0)) :: nestedItems ++ [.stop]))).outcome = .ok e ∧
      e.children = [.element list] ∧ list.tag = "ol" ∧
      list.markup = "<ol start=\"0\">" ++ markupOfAll list.children ++ "</" ++ "ol" ++ ">" ∧
      e.markup = "<div>" ++ list.markup ++ "</div>" := by
  let tree : Doc.Node := .ofEvents (.start (.list (some 0)) :: nestedItems ++ [.stop])
  have hlevels : levels tree + tree.tableNesting + 2 ≤ 512 := by
    rw [levels_eq]
    decide
  have hsanitizing : ∀ s ∈ Sanitizing.enabled.schema?, s.ExtendsGithub := by
    rintro s ⟨⟩
    exact .github
  have hstart : ∀ n ∈ some 0, n < 10 ^ 15 := by simp
  obtain ⟨e, he⟩ := exists_outcome_render (o := {}) rfl hlevels
  obtain ⟨list, hlist⟩ :=
    markup_render_list ⟨rfl, rfl⟩ hsanitizing hstart balanced_nestedItems he
  exact ⟨e, list, he, hlist⟩

end Render

end KeyedMarkup
