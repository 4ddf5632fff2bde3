import KeyedMarkup.Proofs.Hypertext.Preservation
import KeyedMarkup.Proofs.Hypertext.Tables
import KeyedMarkup.Proofs.Number.Whole

/-!
# Levels of headings

The tag of a heading tells its level. A depth is clamped to the levels from 1 to 6, which leaves a
whole depth among these as it is and keeps the order of depths, and without a depth the level is 1.
The one exception is a depth that is a NaN: it is neither below nor above a bound, and the level is
0.
-/

namespace KeyedMarkup.Hypertext.Convert

/-- Whether a heading becomes an element of a level, and this element is in the hypertext of a
tree. -/
def ShowsHeading (options : ConvertOptions) (tree heading : Doc.Node) (level : Nat) : Prop :=
  ∃ properties, let e : Element :=
      ⟨"h" ++ toString level, properties, all options heading.children, some .heading⟩
    one options heading = [.element e] ∧ .element e ∈ (ofDoc options tree).nodes

variable {n : Doc.Node} {x : Binary64}

theorem headingLevel_of_depth (h : n.properties.number? "depth" = some x) :
    headingLevel n = x.clampWhole 1 6 := by
  rw [headingLevel, h]

theorem headingLevel_of_isNaN (h : n.properties.number? "depth" = some x)
    (hx : x.isNaN = true) : headingLevel n = 0 := by
  rw [headingLevel_of_depth h, Binary64.clampWhole, if_pos hx]

theorem one_le_headingLevel_iff : 1 ≤ headingLevel n ↔
    ∀ x, n.properties.number? "depth" = some x → x.isNaN = false := by
  constructor
  · intro hlevel x hx
    by_contra hnumber
    rw [headingLevel_of_isNaN hx ((Bool.not_eq_false _).mp hnumber)] at hlevel
    exact absurd hlevel (by decide)
  · exact fun h => (headingLevel_mem h).1

theorem headingLevel_le (n : Doc.Node) : headingLevel n ≤ 6 := by
  by_cases hnumber : ∀ x, n.properties.number? "depth" = some x → x.isNaN = false
  · exact (headingLevel_mem hnumber).2
  · rw [← one_le_headingLevel_iff] at hnumber
    omega

variable (options : ConvertOptions)

theorem showsHeading_of_reaches {tree heading : Doc.Node} (hreaches : Reaches tree heading)
    (hkind : heading.kind = .heading) :
    ShowsHeading options tree heading (headingLevel heading) := by
  have hone : one options heading =
      [.element ⟨"h" ++ toString (headingLevel heading), kept heading ["depth"],
        all options heading.children, some .heading⟩] := by
    obtain ⟨kind, properties, value, children⟩ := heading
    obtain rfl : kind = .heading := hkind
    rw [one]
    rfl
  refine ⟨_, hone, ?_⟩
  have hmem := hreaches.nodesOfAll_subset options
  rw [hone, Node.nodesOfAll, Node.nodes_element] at hmem
  rw [ofDoc, Node.nodes]
  exact List.mem_cons_of_mem _ (hmem (List.mem_append_left _ List.mem_cons_self))

/-- A heading that the conversion comes to becomes an element of its level, which is one of the six
exactly if its depth is not a NaN. A whole depth among the six is the level, and a heading that is
not deeper than another one has no greater level. -/
theorem showsHeading_ofDoc {tree heading : Doc.Node} (hreaches : Reaches tree heading)
    (hkind : heading.kind = .heading) :
    ShowsHeading options tree heading (headingLevel heading) ∧ headingLevel heading ≤ 6 ∧
      (1 ≤ headingLevel heading ↔
        ∀ x, heading.properties.number? "depth" = some x → x.isNaN = false) ∧
      ∀ x a, heading.properties.number? "depth" = some x → x.value? = some a →
        (∀ d : ℕ, a = d → 1 ≤ d → d ≤ 6 → headingLevel heading = d) ∧
        ∀ (other : Doc.Node) y b, other.properties.number? "depth" = some y →
          y.value? = some b → a ≤ b → headingLevel heading ≤ headingLevel other := by
  refine ⟨showsHeading_of_reaches options hreaches hkind, headingLevel_le heading,
    one_le_headingLevel_iff, ?_⟩
  intro x a hx ha
  rw [headingLevel_of_depth hx]
  constructor
  · rintro d rfl hlower hupper
    exact Binary64.clampWhole_of_natCast ha (by decide) hlower hupper
  · intro other y b hy hb hle
    rw [headingLevel_of_depth hy]
    exact Binary64.clampWhole_mono ha hb hle (by decide) (by decide)

def headingOf (depth : Binary64) : Doc.Node :=
  ⟨.heading, .ofList [("depth", .number depth)], none, [.leaf .text "x"]⟩

def quotedHeadings : Doc.Node :=
  .parent .root [.parent .blockquote [headingOf (.ofNat 3), headingOf ⟨0x7FF0000000000000⟩]]

theorem showsHeading_ofDoc_quotedHeadings :
    ShowsHeading {} quotedHeadings (headingOf (.ofNat 3)) 3 ∧
      3 ≤ headingLevel (headingOf ⟨0x7FF0000000000000⟩) := by
  have hreaches : Reaches quotedHeadings (headingOf (.ofNat 3)) :=
    .step (c := .parent .blockquote _) List.mem_cons_self (.step List.mem_cons_self (.self _))
  have hinfinite : Binary64.value? ⟨0x7FF0000000000000⟩ = some ⊤ := by
    rw [Binary64.value?, if_neg (by decide), if_pos (by decide), if_neg (by decide)]
  obtain ⟨hshows, _, _, hdepth⟩ := showsHeading_ofDoc {} hreaches rfl
  obtain ⟨hwhole, hmono⟩ := hdepth (.ofNat 3) _ rfl (Binary64.value?_ofNat (by decide))
  have hlevel : headingLevel (headingOf (.ofNat 3)) = 3 := hwhole 3 rfl (by decide) (by decide)
  have hdeeper := hmono (headingOf ⟨0x7FF0000000000000⟩) _ _ rfl hinfinite le_top
  rw [hlevel] at hshows hdeeper
  exact ⟨hshows, hdeeper⟩

theorem ofDoc_headingOf_notANumber :
    let heading := headingOf ⟨0x7FF8000000000000⟩
    Reaches (.parent .root [heading]) heading ∧ heading.kind = .heading ∧
      ofDoc {} (.parent .root [heading]) =
        .root [.element ⟨"h0", .empty, [.text "x"], some .heading⟩] ∧
      "h0" ∉ ["h1", "h2", "h3", "h4", "h5", "h6"] := by
  intro heading
  refine ⟨.step List.mem_cons_self (.self _), rfl, ?_, by decide⟩
  rfl

end KeyedMarkup.Hypertext.Convert
