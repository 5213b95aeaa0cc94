import Mathlib.Data.List.Basic
import Mathlib.Tactic.Common

/-!
# Patterns with groups

A pattern of words, repeated classes, sequences, alternatives, optional parts
and groups, with the matches of a backtracking matcher: all ways to match a
prefix of a text, those first that come first in the pattern, and longer
repetitions before shorter ones. A pattern that is anchored at both ends takes
the first of them that leaves nothing over.

`Parses` says what the matches are without their order, and an `Engine` finds
one of them wherever there is one. Whatever the engine, a text that can be parsed
in one way only has the groups of that parse.
-/

namespace Patterns

set_option autoImplicit false

/-- Only a class can be repeated, so a group has at most one text. -/
inductive Pattern (Symbol : Type*)
  | word (symbols : List Symbol)
  | many (accepts : Symbol → Bool)
  | seq (first second : Pattern Symbol)
  | alt (first second : Pattern Symbol)
  | opt (pattern : Pattern Symbol)
  | group (index : Nat) (pattern : Pattern Symbol)

abbrev Groups (Symbol : Type*) := List (Nat × List Symbol)

variable {Symbol : Type*}

def textOf (groups : Groups Symbol) (index : Nat) : Option (List Symbol) :=
  (groups.find? fun found => found.1 = index).map Prod.snd

structure Match (Symbol : Type*) where
  consumed : List Symbol
  rest : List Symbol
  groups : Groups Symbol

/-- Every prefix of at least one symbol that has all its symbols in the class, the longest first. -/
def repetitions (accepts : Symbol → Bool) : List Symbol → List (Match Symbol)
  | [] => []
  | symbol :: rest =>
      if accepts symbol then
        (repetitions accepts rest).map
            (fun found => { found with consumed := symbol :: found.consumed }) ++
          [⟨[symbol], rest, []⟩]
      else []

namespace Pattern

variable [DecidableEq Symbol]

def run : Pattern Symbol → List Symbol → List (Match Symbol)
  | word symbols, text =>
      if symbols.isPrefixOf text then [⟨symbols, text.drop symbols.length, []⟩] else []
  | many accepts, text => repetitions accepts text
  | seq first second, text =>
      (run first text).flatMap fun before =>
        (run second before.rest).map fun after =>
          ⟨before.consumed ++ after.consumed, after.rest, before.groups ++ after.groups⟩
  | alt first second, text => run first text ++ run second text
  | opt pattern, text => run pattern text ++ [⟨[], text, []⟩]
  | group index pattern, text =>
      (run pattern text).map fun found =>
        { found with groups := found.groups ++ [(index, found.consumed)] }

/-- The groups of the pattern between `^` and `$`. -/
def captures (pattern : Pattern Symbol) (text : List Symbol) : Option (Groups Symbol) :=
  ((pattern.run text).find? fun found => found.rest.isEmpty).map Match.groups

end Pattern

/-- The pattern matches the whole text with these groups. -/
inductive Parses : Pattern Symbol → List Symbol → Groups Symbol → Prop
  | word (symbols : List Symbol) : Parses (.word symbols) symbols []
  | many {accepts : Symbol → Bool} {text : List Symbol} (nonempty : text ≠ [])
      (all : ∀ symbol ∈ text, accepts symbol = true) : Parses (.many accepts) text []
  | seq {first second : Pattern Symbol} {before after : List Symbol}
      {beforeGroups afterGroups : Groups Symbol} (left : Parses first before beforeGroups)
      (right : Parses second after afterGroups) :
      Parses (.seq first second) (before ++ after) (beforeGroups ++ afterGroups)
  | altFirst {first second : Pattern Symbol} {text : List Symbol} {groups : Groups Symbol}
      (parse : Parses first text groups) : Parses (.alt first second) text groups
  | altSecond {first second : Pattern Symbol} {text : List Symbol} {groups : Groups Symbol}
      (parse : Parses second text groups) : Parses (.alt first second) text groups
  | present {pattern : Pattern Symbol} {text : List Symbol} {groups : Groups Symbol}
      (parse : Parses pattern text groups) : Parses (.opt pattern) text groups
  | absent {pattern : Pattern Symbol} : Parses (.opt pattern) [] []
  | group {index : Nat} {pattern : Pattern Symbol} {text : List Symbol} {groups : Groups Symbol}
      (parse : Parses pattern text groups) :
      Parses (.group index pattern) text (groups ++ [(index, text)])

/-- What matches patterns against whole texts. Which parse it takes, where there are several, is its
own affair. -/
structure Engine (Symbol : Type*) where
  captures : Pattern Symbol → List Symbol → Option (Groups Symbol)
  sound : ∀ {pattern : Pattern Symbol} {text : List Symbol} {groups : Groups Symbol},
    captures pattern text = some groups → Parses pattern text groups
  complete : ∀ {pattern : Pattern Symbol} {text : List Symbol} {groups : Groups Symbol},
    Parses pattern text groups → ∃ captured, captures pattern text = some captured

/-- A text with one parse has the groups of that parse. -/
theorem Engine.captures_of_unique (engine : Engine Symbol) {pattern : Pattern Symbol}
    {text : List Symbol} {groups : Groups Symbol} (parse : Parses pattern text groups)
    (unique : ∀ others, Parses pattern text others → others = groups) :
    engine.captures pattern text = some groups := by
  obtain ⟨captured, found⟩ := engine.complete parse
  rw [found, unique captured (engine.sound found)]

structure Repeats (accepts : Symbol → Bool) (text consumed rest : List Symbol) : Prop where
  split : text = consumed ++ rest
  nonempty : consumed ≠ []
  all : ∀ symbol ∈ consumed, accepts symbol = true

theorem repeats_cons {accepts : Symbol → Bool} {symbol : Symbol}
    {text consumed rest : List Symbol} :
    Repeats accepts (symbol :: text) consumed rest ↔ accepts symbol = true ∧
      ((∃ shorter, consumed = symbol :: shorter ∧ Repeats accepts text shorter rest) ∨
        consumed = [symbol] ∧ rest = text) := by
  constructor
  · intro repeats
    obtain ⟨first, shorter, cut⟩ := List.exists_cons_of_ne_nil repeats.nonempty
    have split := repeats.split
    have all := repeats.all
    rw [cut, List.cons_append, List.cons.injEq] at split
    rw [cut, List.forall_mem_cons] at all
    rw [cut, split.1]
    refine ⟨all.1, ?_⟩
    by_cases ended : shorter = []
    · right
      rw [ended, split.2, ended]
      exact ⟨rfl, rfl⟩
    · exact .inl ⟨shorter, rfl, split.2, ended, all.2⟩
  · intro ⟨accepted, either⟩
    rcases either with ⟨shorter, consumed, repeats⟩ | ⟨consumed, rest⟩
    · rw [consumed]
      constructor
      · rw [repeats.split, List.cons_append]
      · exact List.cons_ne_nil _ _
      · exact List.forall_mem_cons.mpr ⟨accepted, repeats.all⟩
    · rw [consumed, rest]
      constructor
      · rfl
      · exact List.cons_ne_nil _ _
      · exact List.forall_mem_singleton.mpr accepted

theorem mem_repetitions {accepts : Symbol → Bool} {text : List Symbol} {found : Match Symbol} :
    found ∈ repetitions accepts text ↔
      Repeats accepts text found.consumed found.rest ∧ found.groups = [] := by
  induction text generalizing found with
  | nil =>
      apply iff_of_false
      · exact List.not_mem_nil
      · intro ⟨repeats, _⟩
        exact repeats.nonempty (List.append_eq_nil_iff.mp repeats.split.symm).1
  | cons symbol text induction =>
      rw [repeats_cons, repetitions]
      split_ifs with accepted
      · rw [List.mem_append, List.mem_map, List.mem_singleton]
        constructor
        · intro either
          rcases either with ⟨shorter, member, same⟩ | same
          · obtain ⟨repeats, ungrouped⟩ := induction.mp member
            rw [← same]
            exact ⟨⟨accepted, .inl ⟨shorter.consumed, rfl, repeats⟩⟩, ungrouped⟩
          · rw [same]
            exact ⟨⟨accepted, .inr ⟨rfl, rfl⟩⟩, rfl⟩
        · intro ⟨⟨_, either⟩, ungrouped⟩
          obtain ⟨consumed, rest, groups⟩ := found
          dsimp only at either ungrouped
          rw [ungrouped]
          rcases either with ⟨shorter, more, repeats⟩ | ⟨single, left⟩
          · left
            rw [more]
            exact ⟨⟨shorter, rest, []⟩, induction.mpr ⟨repeats, rfl⟩, rfl⟩
          · right
            rw [single, left]
      · apply iff_of_false
        · exact List.not_mem_nil
        · intro ⟨⟨other, _⟩, _⟩
          exact accepted other

section Inversion

variable {first second pattern : Pattern Symbol} {text : List Symbol} {groups : Groups Symbol}

theorem parses_word {symbols : List Symbol} :
    Parses (.word symbols) text groups ↔ text = symbols ∧ groups = [] := by
  constructor
  · intro parse
    cases parse
    exact ⟨rfl, rfl⟩
  · intro ⟨same, ungrouped⟩
    rw [same, ungrouped]
    exact .word symbols

theorem parses_many {accepts : Symbol → Bool} :
    Parses (.many accepts) text groups ↔
      text ≠ [] ∧ (∀ symbol ∈ text, accepts symbol = true) ∧ groups = [] := by
  constructor
  · intro parse
    cases parse with
    | many nonempty all => exact ⟨nonempty, all, rfl⟩
  · intro ⟨nonempty, all, ungrouped⟩
    rw [ungrouped]
    exact .many nonempty all

theorem parses_seq :
    Parses (.seq first second) text groups ↔
      ∃ before after beforeGroups afterGroups, text = before ++ after ∧
        groups = beforeGroups ++ afterGroups ∧ Parses first before beforeGroups ∧
          Parses second after afterGroups := by
  constructor
  · intro parse
    cases parse with
    | seq left right => exact ⟨_, _, _, _, rfl, rfl, left, right⟩
  · intro ⟨before, after, beforeGroups, afterGroups, split, joined, left, right⟩
    rw [split, joined]
    exact .seq left right

theorem parses_alt :
    Parses (.alt first second) text groups ↔
      Parses first text groups ∨ Parses second text groups := by
  constructor
  · intro parse
    cases parse with
    | altFirst parse => exact .inl parse
    | altSecond parse => exact .inr parse
  · intro either
    rcases either with parse | parse
    · exact .altFirst parse
    · exact .altSecond parse

theorem parses_opt :
    Parses (.opt pattern) text groups ↔ Parses pattern text groups ∨ text = [] ∧ groups = [] := by
  constructor
  · intro parse
    cases parse with
    | present parse => exact .inl parse
    | absent => exact .inr ⟨rfl, rfl⟩
  · intro either
    rcases either with parse | ⟨empty, ungrouped⟩
    · exact .present parse
    · rw [empty, ungrouped]
      exact .absent

theorem parses_group {index : Nat} :
    Parses (.group index pattern) text groups ↔
      ∃ inner, Parses pattern text inner ∧ groups = inner ++ [(index, text)] := by
  constructor
  · intro parse
    cases parse with
    | group parse => exact ⟨_, parse, rfl⟩
  · intro ⟨inner, parse, same⟩
    rw [same]
    exact .group parse

end Inversion

variable [DecidableEq Symbol]

theorem mem_run_word {symbols text : List Symbol} {found : Match Symbol} :
    found ∈ (Pattern.word symbols).run text ↔
      text = found.consumed ++ found.rest ∧ found.consumed = symbols ∧ found.groups = [] := by
  rw [Pattern.run]
  split_ifs with starts
  · obtain ⟨rest, split⟩ := List.isPrefixOf_iff_prefix.mp starts
    rw [List.mem_singleton, ← split, List.drop_left]
    constructor
    · intro same
      rw [same]
      exact ⟨rfl, rfl, rfl⟩
    · intro ⟨joined, consumed, ungrouped⟩
      rw [consumed] at joined
      have rests := List.append_cancel_left joined
      rw [rests, ← consumed, ← ungrouped]
  · apply iff_of_false
    · exact List.not_mem_nil
    · intro ⟨split, consumed, _⟩
      apply starts
      rw [List.isPrefixOf_iff_prefix, split, consumed]
      exact List.prefix_append _ _

/-- The matcher finds the parses of all prefixes, and nothing else. -/
theorem mem_run {pattern : Pattern Symbol} {text : List Symbol} {found : Match Symbol} :
    found ∈ pattern.run text ↔
      text = found.consumed ++ found.rest ∧ Parses pattern found.consumed found.groups := by
  induction pattern generalizing text found with
  | word symbols => rw [mem_run_word, parses_word]
  | many accepts =>
      rw [Pattern.run, mem_repetitions, parses_many]
      constructor
      · intro ⟨repeats, ungrouped⟩
        exact ⟨repeats.split, repeats.nonempty, repeats.all, ungrouped⟩
      · intro ⟨split, nonempty, all, ungrouped⟩
        exact ⟨⟨split, nonempty, all⟩, ungrouped⟩
  | seq first second firstInduction secondInduction =>
      rw [Pattern.run, List.mem_flatMap, parses_seq]
      constructor
      · intro ⟨before, beforeMember, mapped⟩
        obtain ⟨after, afterMember, same⟩ := List.mem_map.mp mapped
        obtain ⟨split, left⟩ := firstInduction.mp beforeMember
        obtain ⟨splitRest, right⟩ := secondInduction.mp afterMember
        rw [← same]
        refine ⟨?_, _, _, _, _, rfl, rfl, left, right⟩
        rw [split, splitRest, List.append_assoc]
      · intro ⟨split, before, after, beforeGroups, afterGroups, joined, groups, left, right⟩
        rw [joined, List.append_assoc] at split
        refine ⟨⟨before, after ++ found.rest, beforeGroups⟩, firstInduction.mpr ⟨split, left⟩, ?_⟩
        apply List.mem_map.mpr
        refine ⟨⟨after, found.rest, afterGroups⟩, secondInduction.mpr ⟨rfl, right⟩, ?_⟩
        rw [← joined, ← groups]
  | alt first second firstInduction secondInduction =>
      rw [Pattern.run, List.mem_append, firstInduction, secondInduction, parses_alt, and_or_left]
  | opt pattern induction =>
      rw [Pattern.run, List.mem_append, List.mem_singleton, induction, parses_opt, and_or_left]
      apply or_congr_right
      constructor
      · intro same
        rw [same]
        exact ⟨rfl, rfl, rfl⟩
      · intro ⟨split, consumed, ungrouped⟩
        rw [consumed, List.nil_append] at split
        rw [split, ← consumed, ← ungrouped]
  | group index pattern induction =>
      rw [Pattern.run, List.mem_map, parses_group]
      constructor
      · intro ⟨inner, member, same⟩
        obtain ⟨split, parse⟩ := induction.mp member
        rw [← same]
        exact ⟨split, inner.groups, parse, rfl⟩
      · intro ⟨split, inner, parse, groups⟩
        refine ⟨⟨found.consumed, found.rest, inner⟩, induction.mpr ⟨split, parse⟩, ?_⟩
        rw [← groups]

theorem parses_of_captures {pattern : Pattern Symbol} {text : List Symbol}
    {groups : Groups Symbol} (captured : pattern.captures text = some groups) :
    Parses pattern text groups := by
  obtain ⟨found, first, same⟩ := Option.map_eq_some_iff.mp captured
  have empty : found.rest = [] := by
    have left := List.find?_some first
    exact List.isEmpty_iff.mp left
  obtain ⟨split, parse⟩ := mem_run.mp (List.mem_of_find?_eq_some first)
  rw [empty, List.append_nil] at split
  rw [← same, split]
  exact parse

theorem captures_of_parses {pattern : Pattern Symbol} {text : List Symbol}
    {groups : Groups Symbol} (parse : Parses pattern text groups) :
    ∃ captured, pattern.captures text = some captured := by
  have member : (⟨text, [], groups⟩ : Match Symbol) ∈ pattern.run text :=
    mem_run.mpr ⟨(List.append_nil text).symm, parse⟩
  have some_match : ((pattern.run text).find? fun found => found.rest.isEmpty).isSome :=
    List.find?_isSome.mpr ⟨_, member, rfl⟩
  obtain ⟨found, first⟩ := Option.isSome_iff_exists.mp some_match
  exact ⟨found.groups, by rw [Pattern.captures, first]; rfl⟩

def backtracking : Engine Symbol where
  captures := Pattern.captures
  sound := parses_of_captures
  complete := captures_of_parses

end Patterns
