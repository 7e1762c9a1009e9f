import Mathlib.Data.List.Forall2
import QueueScript.Outline
import QueueScript.Proofs.Script.Reread
import QueueScript.Proofs.Script.Spacing

namespace QueueScript

theorem Json.sorted_of_parse {s : List Char} {ms : Table String Json}
    (h : Json.parse s = .ok (.object ms)) : Table.Sorted ms := by
  obtain ⟨r, hread, _⟩ := parse_eq_ok_iff.mp h
  rcases readValue_cases hread with ⟨_, _, _, _, hv⟩ | ⟨_, _, _, _, hv⟩ | ⟨_, _, _, _, _, _, hv⟩ |
    ⟨_, _, _, _, _, hms, hv⟩
  · exact absurd rfl hv
  · cases hv
  · cases hv
  · cases hv
    exact (sorted_of_readMembers hms).1

def LineRange.Within (inner outer : LineRange) : Prop :=
  outer.first ≤ inner.first ∧ inner.last ≤ outer.last

namespace Outline

inductive Symbol.Nested : Symbol → Prop where
  | node {name : String} {detail : Option String} {kind : SymbolKind} {range : LineRange}
      {children : List Symbol} (inside : ∀ s ∈ children, s.range.Within range)
      (nested : ∀ s ∈ children, s.Nested) : Nested (.node name detail kind range children)

theorem Symbol.nested_leaf (name : String) (detail : Option String) (kind : SymbolKind)
    (range : LineRange) : (Symbol.node name detail kind range []).Nested :=
  .node (by simp) (by simp)

theorem fieldSymbols_of_mem {r : LineRange} {v : Json} {s : Symbol} (h : s ∈ fieldSymbols r v) :
    s.range = r ∧ s.Nested := by
  cases v with
  | object ms =>
      obtain ⟨e, _, rfl⟩ := List.mem_map.mp h
      exact ⟨rfl, Symbol.nested_leaf ..⟩
  | array vs =>
      obtain ⟨e, _, rfl⟩ := List.mem_map.mp h
      exact ⟨rfl, Symbol.nested_leaf ..⟩
  | null | bool | number | string => cases h

theorem bodySymbol?_eq_some_iff {c : Command} {s : Symbol} :
    bodySymbol? c = some s ↔ ∃ v r, c.body = some v ∧ c.bodyRange = some r ∧
      s = .node "body" none .body r (fieldSymbols r v) := by
  cases hv : c.body <;> cases hr : c.bodyRange <;> simp [bodySymbol?, hv, hr, eq_comm]

theorem nested_commandSymbol {c : Command} (h : c.Placed) : (commandSymbol c).Nested := by
  have hchild : ∀ s ∈ c.parameters.map parameterSymbol ++ (bodySymbol? c).toList,
      s.range.Within c.range ∧ s.Nested := by
    intro s hs
    rcases List.mem_append.mp hs with hs | hs
    · obtain ⟨p, hp, rfl⟩ := List.mem_map.mp hs
      obtain ⟨hfirst, hlast⟩ := h.parameters p hp
      exact ⟨⟨Nat.le_of_lt hfirst, hlast⟩, Symbol.nested_leaf ..⟩
    · obtain ⟨v, r, _, hr, rfl⟩ := bodySymbol?_eq_some_iff.mp (Option.mem_toList.mp hs)
      obtain ⟨hfirst, _, hlast⟩ := h.body r hr
      refine ⟨⟨Nat.le_of_lt hfirst, hlast⟩, .node ?_ ?_⟩
      · intro x hx
        rw [(fieldSymbols_of_mem hx).1]
        exact ⟨Nat.le_refl _, Nat.le_refl _⟩
      · intro x hx
        exact (fieldSymbols_of_mem hx).2
  exact .node (fun s hs => (hchild s hs).1) (fun s hs => (hchild s hs).2)

structure Shows (c : Command) (s : Symbol) (ps : List Symbol) (body : Option Symbol) : Prop where
  range : s.range = c.range
  children : s.children = ps ++ body.toList
  parameters : ∀ p ∈ ps, p.kind = .parameter ∧ s.range.first < p.range.first ∧
    p.range.last = p.range.first
  rising : ps.Pairwise (fun p q => p.range.first < q.range.first)
  present : body.isSome = c.body.isSome
  apart : ∀ b ∈ body, b.kind = .body ∧ ∀ p ∈ ps, b.range.contains p.range.first = false
  fields : ∀ b ∈ body, ∃ ms, c.body = some (.object ms) ∧
    b.children.map Symbol.name = Table.keys ms ∧ Table.Sorted ms

theorem shows_commandSymbol {c : Command} (hplaced : c.Placed)
    (hspaced : Script.Spaced c.parameters c.body c.bodyRange)
    (hobject : ∀ v, c.body = some v → ∃ ms, v = .object ms ∧ Table.Sorted ms) :
    Shows c (commandSymbol c) (c.parameters.map parameterSymbol) (bodySymbol? c) where
  range := rfl
  children := rfl
  parameters s hs := by
    obtain ⟨p, hp, rfl⟩ := List.mem_map.mp hs
    exact ⟨rfl, (hplaced.parameters p hp).1, rfl⟩
  rising := List.pairwise_map.mpr hspaced.rising
  present := by
    have hranged := hspaced.ranged
    cases hv : c.body with
    | none => simp [bodySymbol?, hv]
    | some v =>
        rw [hv] at hranged
        obtain ⟨r, hr⟩ := Option.isSome_iff_exists.mp (hranged rfl)
        simp [bodySymbol?, hv, hr]
  apart b hb := by
    obtain ⟨v, r, _, hr, rfl⟩ := bodySymbol?_eq_some_iff.mp hb
    refine ⟨rfl, ?_⟩
    intro s hs
    obtain ⟨p, hp, rfl⟩ := List.mem_map.mp hs
    exact hspaced.apart r hr p hp
  fields b hb := by
    obtain ⟨v, r, hv, _, rfl⟩ := bodySymbol?_eq_some_iff.mp hb
    obtain ⟨ms, rfl, hsorted⟩ := hobject v hv
    refine ⟨ms, hv, ?_, hsorted⟩
    exact List.map_map

theorem outline_parse (d : Script.Defaults) (text : String) :
    let cs := Script.parse d text
    (lenses cs).map (fun l => (l.line, l.command)) =
        ((symbols cs).map (fun s => s.range.first)).zipIdx ∧
      List.Forall₂ (fun c s => ∃ ps body, Shows c s ps body) cs (symbols cs) ∧
      (symbols cs).Pairwise (fun a b => a.range.last < b.range.first) ∧
      ∀ s ∈ symbols cs, s.range.first ≤ s.range.last ∧ s.Nested := by
  intro cs
  refine ⟨?_, ?_, ?_, ?_⟩
  · rw [lenses, symbols, List.map_map, List.map_map, List.zipIdx_map]
    rfl
  · rw [symbols, List.forall₂_map_right_iff, List.forall₂_same]
    intro c hc
    refine ⟨_, _, shows_commandSymbol (Script.placed_of_mem_parse hc)
      (Script.spaced_of_mem_parse hc) ?_⟩
    intro v hv
    obtain ⟨a, last, hobject, rfl⟩ := Script.exists_finish_of_mem_parse hc
    obtain ⟨_, ms, hparse, rfl⟩ := hobject v hv
    exact ⟨ms, rfl, Json.sorted_of_parse hparse⟩
  · exact List.pairwise_map.mpr (Script.pairwise_parse d text)
  · intro s hs
    obtain ⟨c, hc, rfl⟩ := List.mem_map.mp hs
    exact ⟨(Script.range_of_mem_parse hc).1, nested_commandSymbol (Script.placed_of_mem_parse hc)⟩

theorem outline_parse_replaced_body :
    let d : Script.Defaults := ⟨"dev", "us"⟩
    let text := "SEND q\nprofile: ops\n\x7b\nregion: eu\n\x7d\n" ++
      "\x7b\"b\": 1, \"a\": [2]\x7d\nregion: eu\n###\nPURGE q"
    let field (name type : String) : Symbol := .node name (some type) .field ⟨5, 5⟩ []
    let tree : Symbol := .node "SEND q" (some "ops / eu") .command ⟨0, 7⟩
      [.node "profile" (some "ops") .parameter ⟨1, 1⟩ [],
        .node "region" (some "eu") .parameter ⟨6, 6⟩ [],
        .node "body" none .body ⟨5, 5⟩ [field "a" "array", field "b" "number"]]
    tree ∈ symbols (Script.parse d text) ∧ tree.range.first ≤ tree.range.last ∧ tree.Nested ∧
      (lenses (Script.parse d text)).map (fun l => (l.line, l.command)) = [(0, 0), (8, 1)] := by
  intro d text field tree
  obtain ⟨hlenses, _, _, hnested⟩ := outline_parse d text
  have hsymbols : symbols (Script.parse d text) =
      [tree, .node "PURGE q" (some "dev / us") .command ⟨8, 8⟩ []] := by
    dsimp only [d, text, tree, field]
    rfl
  have htree : tree ∈ symbols (Script.parse d text) := hsymbols ▸ List.mem_cons_self ..
  refine ⟨htree, (hnested tree htree).1, (hnested tree htree).2, ?_⟩
  rw [hlenses, hsymbols]
  rfl

end Outline

end QueueScript
