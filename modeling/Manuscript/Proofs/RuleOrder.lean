import Manuscript.Proofs.Occurrences
import Mathlib.Data.List.Perm.Basic

/-!
# The order of rules

The rules of a macro list see what the rules before them have made of a text, so their order
matters in general. It does not matter among literal rules that have nothing to do with each
other: the search texts hold no space, and no character of one search text stands in the search
text or in the replacement of another rule. What one of two such rules replaces the other keeps
character by character, before the replacing and after it, and the spaces around a replacement
keep both search texts from being formed across it.

It is enough to show this of two neighbouring rules. The proof goes along the text and asks at
each place which of the two search texts begins there. Where none does, the first character is
kept by both rules in either order, because replacing behind that character makes no search
text begin with it.
-/

namespace Manuscript

/-- No character of the first search text occurs in the second rule. -/
def Rule.Avoids (first second : Rule) : Prop :=
  ∀ c ∈ first.search, c ∉ second.search ∧ c ∉ second.replace

instance (first second : Rule) : Decidable (first.Avoids second) :=
  List.decidableBAll (fun c => c ∉ second.search ∧ c ∉ second.replace) first.search

/-- A literal rule whose search text holds no space, so that the spaces around a replacement
belong to no occurrence. -/
structure Rule.Spaceless (rule : Rule) : Prop extends rule.Literal where
  spaceless : ' ' ∉ rule.search

namespace Occurrences

/-- What is put in the place of another search text holds no character of a search text that
avoids it. -/
theorem avoids_spaced {first second : Rule} (spaceless : ' ' ∉ first.search)
    (avoids : first.Avoids second) : ∀ c ∈ spaced second.replace, c ∉ first.search := by
  intro c member found
  rcases List.mem_append.mp member with inFront | atEnd
  · rcases List.mem_cons.mp inFront with rfl | inReplacement
    · exact spaceless found
    · exact (avoids c found).2 inReplacement
  · rw [List.mem_singleton.mp atEnd] at found
    exact spaceless found

end Occurrences

namespace Rule.Literal

open Occurrences

variable {rule : Rule} (literal : rule.Literal)
include literal

/-- Characters that the search text does not hold are kept, and the rule goes on behind them. -/
theorem substitute_untouched (front back : Text) (plain : ∀ c ∈ front, c ∉ rule.search) :
    rule.substitute (front ++ back) = front ++ rule.substitute back := by
  induction front with
  | nil => rfl
  | cons c rest inductionHypothesis =>
    obtain ⟨apart, plainRest⟩ := List.forall_mem_cons.mp plain
    have noHit : ¬rule.search <+: c :: (rest ++ back) := by
      intro stands
      have empty : rule.search <+: [] := (Text.prefix_apart_iff apart [] (rest ++ back)).mp stands
      exact literal.nonempty (List.prefix_nil.mp empty)
    rw [List.cons_append, literal.substitute_keep noHit, inductionHypothesis plainRest,
      List.cons_append]

/-- A text of characters that the rule neither replaces nor writes begins what the rule has made
exactly if it began the text before. -/
theorem prefix_substitute_iff (beginning text : Text)
    (unreplaced : ∀ c ∈ beginning, c ∉ rule.search)
    (unwritten : ∀ c ∈ beginning, c ∉ spaced rule.replace) :
    beginning <+: rule.substitute text ↔ beginning <+: text := by
  induction beginning generalizing text with
  | nil => simp
  | cons c more inductionHypothesis =>
    obtain ⟨unreplacedHere, unreplacedMore⟩ := List.forall_mem_cons.mp unreplaced
    obtain ⟨unwrittenHere, unwrittenMore⟩ := List.forall_mem_cons.mp unwritten
    by_cases stands : rule.search <+: text
    · obtain ⟨rest, rfl⟩ := stands
      rw [literal.substitute_hit]
      constructor
      · intro begins
        have same : c = ' ' := (List.cons_prefix_cons.mp begins).1
        exact absurd (same ▸ List.mem_cons_self) unwrittenHere
      · intro begins
        cases shape : rule.search with
        | nil => exact absurd shape literal.nonempty
        | cons d others =>
          rw [shape] at begins unreplacedHere
          have same : c = d := (List.cons_prefix_cons.mp begins).1
          exact absurd (same ▸ List.mem_cons_self) unreplacedHere
    · cases text with
      | nil => rw [literal.substitute_nil]
      | cons d rest =>
        rw [literal.substitute_keep stands, List.cons_prefix_cons, List.cons_prefix_cons,
          inductionHypothesis rest unreplacedMore unwrittenMore]

end Rule.Literal

namespace Rule.Spaceless

open Occurrences

variable {first second : Rule}

/-- A replaced search text is kept by a rule that avoids it, and so is what replaces it. -/
theorem substitute_replaced (one : first.Spaceless) (other : second.Spaceless)
    (forth : first.Avoids second) (back : second.Avoids first) (rest : Text)
    (behind : second.substitute (first.substitute rest) =
      first.substitute (second.substitute rest)) :
    second.substitute (first.substitute (first.search ++ rest)) =
      first.substitute (second.substitute (first.search ++ rest)) := by
  have kept : ∀ c ∈ first.search, c ∉ second.search := fun c member => (forth c member).1
  have written := avoids_spaced other.spaceless back
  calc second.substitute (first.substitute (first.search ++ rest))
      = second.substitute (spaced first.replace ++ first.substitute rest) := by
        rw [one.substitute_hit]
    _ = spaced first.replace ++ second.substitute (first.substitute rest) :=
        other.substitute_untouched _ _ written
    _ = spaced first.replace ++ first.substitute (second.substitute rest) := by rw [behind]
    _ = first.substitute (first.search ++ second.substitute rest) := (one.substitute_hit _).symm
    _ = first.substitute (second.substitute (first.search ++ rest)) := by
        rw [other.substitute_untouched _ _ kept]

/-- A character with which neither search text begins is still no beginning of the first one
when the second rule has gone over what is behind it. -/
theorem keep_behind (one : first.Spaceless) (other : second.Spaceless)
    (forth : first.Avoids second) {c : Char} {rest : Text}
    (noFirst : ¬first.search <+: c :: rest) (noSecond : ¬second.search <+: c :: rest) :
    first.substitute (second.substitute (c :: rest)) =
      c :: first.substitute (second.substitute rest) := by
  have same := other.prefix_substitute_iff first.search (c :: rest)
    (fun d member => (forth d member).1)
    (fun d member written => avoids_spaced one.spaceless forth d written member)
  rw [other.substitute_keep noSecond] at same ⊢
  exact one.substitute_keep (mt same.mp noFirst)

/-- Two rules that avoid each other may be applied in either order. -/
theorem substitute_comm (one : first.Spaceless) (other : second.Spaceless)
    (forth : first.Avoids second) (back : second.Avoids first) (text : Text) :
    second.substitute (first.substitute text) = first.substitute (second.substitute text) := by
  induction size : text.length using Nat.strongRecOn generalizing text with
  | _ count inductionHypothesis =>
    have shorter : ∀ (rule : Rule) (rest : Text), rule.Literal → text = rule.search ++ rest →
        rest.length < count := by
      intro rule rest literal shape
      have positive : 0 < rule.search.length := List.length_pos_iff.mpr literal.nonempty
      rw [← size, shape, List.length_append]
      omega
    by_cases atFirst : first.search <+: text
    · obtain ⟨rest, rfl⟩ := atFirst
      exact substitute_replaced one other forth back rest
        (inductionHypothesis _ (shorter first rest one.toLiteral rfl) rest rfl)
    · by_cases atSecond : second.search <+: text
      · obtain ⟨rest, rfl⟩ := atSecond
        exact (substitute_replaced other one back forth rest
          (inductionHypothesis _ (shorter second rest other.toLiteral rfl) rest rfl).symm).symm
      · cases text with
        | nil => rw [one.substitute_nil, other.substitute_nil, one.substitute_nil]
        | cons c rest =>
          have behind := inductionHypothesis rest.length (by rw [← size]; exact Nat.lt_succ_self _)
            rest rfl
          rw [keep_behind other one back atSecond atFirst, behind,
            keep_behind one other forth atFirst atSecond]

end Rule.Spaceless

/-- Literal rules without spaces in their search texts may be listed in any order where no
character of a search text occurs in the search text or in the replacement of a rule at another
place of the list. -/
theorem applyRules_perm (rules others : List Rule) (perm : others.Perm rules)
    (spaceless : ∀ rule ∈ rules, rule.Spaceless)
    (apart : ∀ i j : Fin rules.length, i ≠ j → rules[i].Avoids rules[j]) (text : Text) :
    applyRules others text = applyRules rules text := by
  have commute : ∀ first ∈ rules, ∀ second ∈ rules, ∀ current : Text,
      second.substitute (first.substitute current) =
        first.substitute (second.substitute current) := by
    intro first firstMember second secondMember current
    obtain ⟨i, rfl⟩ := List.mem_iff_get.mp firstMember
    obtain ⟨j, rfl⟩ := List.mem_iff_get.mp secondMember
    by_cases same : i = j
    · rw [same]
    · exact Rule.Spaceless.substitute_comm (spaceless _ firstMember) (spaceless _ secondMember)
        (apart i j same) (apart j i (Ne.symm same)) current
  exact (perm.symm.foldl_eq' commute text).symm

/-- Rules for three signs; the replacement of the first holds its own search text. -/
def signs : List Rule :=
  [⟨['&'], ['\\', '&'], .anywhere, nofun⟩, ⟨['<', '='], "\\le".toList, .anywhere, nofun⟩,
    ⟨['.', '.'], "\\dots".toList, .anywhere, nofun⟩]

/-- Backwards the rules for signs make the same of a text in which their hits touch. -/
theorem signs_reversed :
    signs.reverse.Perm signs ∧ (∀ rule ∈ signs, rule.Spaceless) ∧
      (∀ i j : Fin signs.length, i ≠ j → signs[i].Avoids signs[j]) ∧
      applyRules signs.reverse "...&<=".toList = applyRules signs "...&<=".toList ∧
      applyRules signs "...&<=".toList = " \\dots . \\&  \\le ".toList := by
  have spaceless : ∀ rule ∈ signs, rule.Spaceless := by
    intro rule member
    have anywhere : ∀ rule ∈ signs, rule.mode = .anywhere := by decide
    have nonempty : ∀ rule ∈ signs, rule.search ≠ [] := by decide
    have noSpace : ∀ rule ∈ signs, ' ' ∉ rule.search := by decide
    exact ⟨⟨anywhere rule member, nonempty rule member⟩, noSpace rule member⟩
  have apart : ∀ i j : Fin signs.length, i ≠ j → signs[i].Avoids signs[j] := by decide
  exact ⟨signs.reverse_perm, spaceless, apart,
    applyRules_perm signs signs.reverse signs.reverse_perm spaceless apart _, by decide +kernel⟩

end Manuscript
