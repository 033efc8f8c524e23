import FixGate.Text.Search
import Mathlib.Data.List.Infix

/-!
# Texts within texts

One text stands in another word for word. A text without a slash stands in names that are joined by slashes exactly if
it stands in one of them.

* `Within` : one text stands in another
* `Text.contains_iff` : the search for a text in another
* `Within.append_left`, `Within.append_right`, `Within.intercalate` : texts that are put together
* `Within.intercalate_slash_iff` : what stands in names that are joined by slashes
-/

namespace FixGate

/-- One text stands in another, word for word. -/
def Within (x y : String) : Prop :=
  x.toList <:+: y.toList

theorem Text.occursIn_iff {needle cs : List Char} : Text.occursIn needle cs = true ↔ needle <:+: cs := by
  induction cs with
  | nil => rw [occursIn, List.isEmpty_iff, List.infix_nil]
  | cons c cs ih => rw [occursIn, Bool.or_eq_true, List.isPrefixOf_iff_prefix, ih, List.infix_cons_iff]

theorem Text.contains_iff {x y : String} : Text.contains y x = true ↔ Within x y :=
  Text.occursIn_iff

instance (x y : String) : Decidable (Within x y) :=
  decidable_of_iff _ Text.contains_iff

/-- Each of some runs of characters stands in all of them, whatever is put between them. -/
theorem Text.infix_intercalate {between run : List Char} {runs : List (List Char)} (held : run ∈ runs) :
    run <:+: between.intercalate runs := by
  induction runs with
  | nil => cases held
  | cons r runs ih =>
    cases runs with
    | nil =>
      obtain rfl := List.mem_singleton.1 held
      simp
    | cons r' runs =>
      rw [List.intercalate_cons_cons]
      rcases List.mem_cons.1 held with rfl | held
      · rw [List.append_assoc]
        exact (List.prefix_append _ _).isInfix
      · exact (ih held).trans (List.suffix_append _ _).isInfix

namespace Within

variable {x y z : String}

theorem refl (x : String) : Within x x := List.infix_refl _

theorem trans (xy : Within x y) (yz : Within y z) : Within x z := List.IsInfix.trans xy yz

theorem append_left (xy : Within x y) (z : String) : Within x (z ++ y) := by
  unfold Within
  rw [String.toList_append]
  exact List.IsInfix.trans xy (List.suffix_append _ _).isInfix

theorem append_right (xy : Within x y) (z : String) : Within x (y ++ z) := by
  unfold Within
  rw [String.toList_append]
  exact List.IsInfix.trans xy (List.prefix_append _ _).isInfix

/-- Each of some texts stands in all of them, whatever is put between them. -/
theorem intercalate {xs : List String} (hx : x ∈ xs) (between : String) :
    Within x (between.intercalate xs) := by
  unfold Within
  rw [String.toList_intercalate]
  exact Text.infix_intercalate (List.mem_map_of_mem hx)

/-! ## Texts that are joined by a separator -/

section Separator

variable {c : Char} {needle : List Char}

theorem prefix_append_cons_iff (hc : c ∉ needle) (cs ds : List Char) : needle <+: cs ++ c :: ds ↔ needle <+: cs := by
  refine ⟨fun h => ?_, fun h => h.trans (List.prefix_append _ _)⟩
  rcases List.prefix_or_prefix_of_prefix h (List.prefix_append cs (c :: ds)) with hin | ⟨rest, rfl⟩
  · exact hin
  · -- what goes beyond the first part begins with the separator
    cases rest with
    | nil => simp
    | cons d rest =>
      rw [List.prefix_append_right_inj, List.cons_prefix_cons] at h
      exact absurd (h.1 ▸ by simp) hc

/-- What does not hold a character stands before or behind it. -/
theorem infix_append_cons_iff (hc : c ∉ needle) (cs ds : List Char) :
    needle <:+: cs ++ c :: ds ↔ needle <:+: cs ∨ needle <:+: ds := by
  induction cs with
  | nil =>
    have hfirst : needle <+: c :: ds ↔ needle <+: [] := prefix_append_cons_iff hc [] ds
    rw [List.nil_append, List.infix_cons_iff, hfirst, List.prefix_nil, List.infix_nil]
  | cons d cs ih =>
    have hfirst : needle <+: d :: (cs ++ c :: ds) ↔ needle <+: d :: cs := prefix_append_cons_iff hc (d :: cs) ds
    rw [List.cons_append, List.infix_cons_iff, hfirst, ih, List.infix_cons_iff, or_assoc]

end Separator

/-- A text without a slash stands in names that are joined by slashes exactly if it stands in one of them. -/
theorem intercalate_slash_iff {names : List String} (filled : x ≠ "") (plain : '/' ∉ x.toList) :
    Within x ("/".intercalate names) ↔ ∃ n ∈ names, Within x n := by
  refine ⟨fun h => ?_, fun ⟨n, hn, hx⟩ => hx.trans (.intercalate hn "/")⟩
  have hslash : "/".toList = ['/'] := rfl
  unfold Within at h
  rw [String.toList_intercalate, hslash] at h
  induction names with
  | nil =>
    rw [List.map_nil, List.intercalate_nil, List.infix_nil, String.toList_eq_nil_iff] at h
    exact absurd h filled
  | cons n names ih =>
    cases names with
    | nil =>
      rw [List.map_singleton, List.intercalate_singleton] at h
      exact ⟨n, List.mem_cons_self, h⟩
    | cons m names =>
      rw [List.map_cons, List.map_cons, List.intercalate_cons_cons, List.append_assoc, List.singleton_append,
        infix_append_cons_iff plain] at h
      rcases h with h | h
      · exact ⟨n, List.mem_cons_self, h⟩
      · obtain ⟨k, hk, hx⟩ := ih h
        exact ⟨k, List.mem_cons_of_mem _ hk, hx⟩

end Within

end FixGate
