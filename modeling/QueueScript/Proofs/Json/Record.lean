import Mathlib.Data.List.Nodup
import QueueScript.Proofs.Json.Skip
import QueueScript.Proofs.Json.Typed
/-!
Records as objects. What is read depends on which fields are named and on their values, not on their
order, and members of other names are passed over.
-/

namespace QueueScript.Json

abbrev Selection := List String → Bool

def Selection.within (kept : Selection) (name : String) : Selection := fun path => kept (name :: path)

/-- The second value is the first one with fields left out at any level, the others in any order, and
with further fields. No name comes twice, and of the old names just those of the kept fields are there;
what stands under new names is free. -/
inductive Edited : Selection → Json → Json → Prop
  | value {kept : Selection} {v : Json} : (∀ ms, v ≠ .object ms) → Edited kept v v
  | object {kept : Selection} {ms ns : List (String × Json)} : (ns.map Prod.fst).Nodup →
      (∀ e ∈ ms, e.1 ∈ ns.map Prod.fst ↔ kept [e.1] = true) →
      (∀ e ∈ ns, ∀ v, (e.1, v) ∈ ms → Edited (kept.within e.1) v e.2) →
      Edited kept (.object ms) (.object ns)

@[simp] theorem ofNat_ne_object (n : Nat) (ms : List (String × Json)) : ofNat n ≠ .object ms := nofun

theorem Edited.eq_of_ne {kept : Selection} {v w : Json} (h : Edited kept v w)
    (hv : ∀ ms, v ≠ .object ms) : w = v := by
  cases h with
  | value => rfl
  | object => exact absurd rfl (hv _)

theorem Edited.exists_object {kept : Selection} {ms : List (String × Json)} {w : Json}
    (h : Edited kept (.object ms) w) :
    ∃ ns, w = .object ns ∧ (ns.map Prod.fst).Nodup ∧
      (∀ e ∈ ms, e.1 ∈ ns.map Prod.fst ↔ kept [e.1] = true) ∧
      ∀ e ∈ ns, ∀ v, (e.1, v) ∈ ms → Edited (kept.within e.1) v e.2 := by
  cases h with
  | value hne => exact absurd rfl (hne ms)
  | object hnodup hnames hvalues => exact ⟨_, rfl, hnodup, hnames, hvalues⟩

theorem eq_of_mem_of_nodup {α : Type} {ms : List (String × α)} (h : (ms.map Prod.fst).Nodup)
    {k : String} {a b : α} (ha : (k, a) ∈ ms) (hb : (k, b) ∈ ms) : a = b := by
  have hpair : (k, a) = (k, b) := List.inj_on_of_nodup_map h ha hb rfl
  exact congrArg Prod.snd hpair

theorem Edited.object_self {ms : List (String × Json)} (hnodup : (ms.map Prod.fst).Nodup)
    (h : ∀ e ∈ ms, Edited (fun _ => true) e.2 e.2) :
    Edited (fun _ => true) (.object ms) (.object ms) := by
  refine .object hnodup ?_ ?_
  · intro e he
    exact iff_of_true (List.mem_map_of_mem he) rfl
  · intro e he v hv
    rw [eq_of_mem_of_nodup hnodup hv he]
    exact h e he

variable {style : Style} {depth : Nat} {α β δ : Type}

def named (names : List String) (name : String) (a : α) : Option α :=
  if name ∈ names then some a else none

theorem named_of_not_mem {names : List String} {name : String} (h : name ∉ names) (a : α) :
    named names name a = none := if_neg h

theorem named_cons_of_ne {name other : String} (h : other ≠ name) (names : List String) (a : α) :
    named (other :: names) name a = named names name a := by
  simp [named, h.symm]

theorem getD_named {names : List String} {kept : Selection} {name : String}
    (h : name ∈ names ↔ kept [name] = true) (a b : α) :
    (named names name a).getD b = if kept [name] then a else b := by
  rw [named, if_congr h rfl rfl]
  split <;> rfl

namespace Record

variable {f : Record δ α} {draft : List String → δ} {ns : List (String × Json)}

def Sets (style : Style) (depth : Nat) (draft : List String → δ) (ns : List (String × Json))
    (field : RecordField δ) : Prop :=
  ∀ seen, field.name ∉ seen → field.isSet (draft seen) = false ∧ ∀ v, (field.name, v) ∈ ns →
    ReadsPadded style depth (field.read (draft seen)) v (draft (field.name :: seen))

/-- The draft is given by the names that were read so far. -/
structure Gathered (style : Style) (depth : Nat) (f : Record δ α) (draft : List String → δ)
    (ns : List (String × Json)) : Prop where
  start : draft [] = f.empty
  known : ∀ field ∈ f.fields, Sets style depth draft ns field
  unknown : ∀ name, name ∉ f.fields.map RecordField.name → ∀ seen, draft (name :: seen) = draft seen

theorem Gathered.readMember (h : Gathered style depth f draft ns) (hs : style.Blank)
    {seen : List String} {k : String} {v : Json} (hv : (k, v) ∈ ns) (hk : k ∉ seen) {r : List Char}
    (hr : EndsNumber r) :
    f.readMember (draft seen) k (style.colon ++ (write style depth v ++ r)) =
      .ok (draft (k :: seen), r) := by
  obtain ⟨w, hcolon, hw⟩ := colon_append hs (write style depth v ++ r)
  rw [Record.readMember]
  cases hfind : f.fields.find? (fun field => field.name == k) with
  | none =>
      have hname : k ∉ f.fields.map RecordField.name := by
        intro hmem
        obtain ⟨field, hfield, rfl⟩ := List.mem_map.mp hmem
        simpa using List.find?_eq_none.mp hfind field hfield
      simp only [hcolon]
      simp only [bind, Except.bind, skipValue_write hs v depth w r hw hr, h.unknown k hname]
      rfl
  | some field =>
      have hfield := List.mem_of_find?_eq_some hfind
      obtain rfl : field.name = k := by simpa using List.find?_some hfind
      obtain ⟨hunset, hread⟩ := h.known field hfield seen hk
      simp only [hunset, hcolon]
      exact hread v hv w r hw hr

theorem Gathered.gathers (h : Gathered style depth f draft ns) (hs : style.Blank)
    {ms : List (String × Json)} (hms : ∀ e ∈ ms, e ∈ ns) (hnodup : (ms.map Prod.fst).Nodup)
    {seen : List String} (hseen : ∀ k ∈ ms.map Prod.fst, k ∉ seen) :
    Gathers style depth f.readMember (draft seen) ms (draft ((ms.map Prod.fst).reverse ++ seen)) := by
  induction ms generalizing seen with
  | nil => exact .nil
  | cons e ms ih =>
      obtain ⟨k, v⟩ := e
      obtain ⟨he, hms⟩ := List.forall_mem_cons.mp hms
      obtain ⟨hk, hnodup⟩ := List.nodup_cons.mp hnodup
      obtain ⟨hnew, hseen⟩ := List.forall_mem_cons.mp hseen
      have hrest : ∀ x ∈ ms.map Prod.fst, x ∉ k :: seen := by
        intro x hx hmem
        rcases List.mem_cons.mp hmem with rfl | hmem
        · exact hk hx
        · exact hseen x hx hmem
      have htail := ih hms hnodup hrest
      rw [List.map_cons, List.reverse_cons, List.append_assoc, List.singleton_append]
      exact .cons (fun r hr => h.readMember hs he hnew hr) htail

theorem readsPadded_edited (draft : List String → δ) (hs : style.Blank) {kept : Selection}
    {ms : List (String × Json)} {v : Json} (h : Edited kept (.object ms) v)
    (hgathered : ∀ ns, (∀ e ∈ ns, ∀ v, (e.1, v) ∈ ms → Edited (kept.within e.1) v e.2) →
      Gathered style (depth + 1) f draft ns)
    {a : α} (hbuild : ∀ names, (∀ e ∈ ms, e.1 ∈ names ↔ kept [e.1] = true) →
      f.build (draft names) = .ok a) :
    ReadsPadded style depth f.read v a := by
  obtain ⟨ns, rfl, hnodup, hnames, hvalues⟩ := h.exists_object
  have hstart := hgathered ns hvalues
  have hseen : ∀ k ∈ ns.map Prod.fst, k ∉ [] := fun _ _ => List.not_mem_nil
  have hgathers := hstart.gathers hs (fun _ he => he) hnodup hseen
  rw [hstart.start, List.append_nil] at hgathers
  refine Record.readsPadded hs hgathers (hbuild _ ?_)
  intro e he
  rw [List.mem_reverse]
  exact hnames e he

theorem sets_field {name : String} {get : δ → Option β} {set : δ → β → δ} {read : Reader β} {b : β}
    (hread : ∀ v, (name, v) ∈ ns → ReadsPadded style depth read v b)
    (hget : ∀ seen, get (draft seen) = named seen name b)
    (hset : ∀ seen, set (draft seen) b = draft (name :: seen)) :
    Sets style depth draft ns (.of name get set read) := by
  intro seen hseen
  constructor
  · have hnew : name ∉ seen := hseen
    change (get (draft seen)).isSome = false
    rw [hget, named_of_not_mem hnew, Option.isSome_none]
  · intro v hv w r hw hr
    simp only [RecordField.of, hread v hv w r hw hr]
    simp only [bind, Except.bind, hset]
    rfl

theorem sets_value {kept : Selection} {ms : List (String × Json)} {name : String} {x : Json}
    {get : δ → Option β} {set : δ → β → δ} {read : Reader β} {b : β}
    (hvalues : ∀ e ∈ ns, ∀ v, (e.1, v) ∈ ms → Edited (kept.within e.1) v e.2)
    (hmem : (name, x) ∈ ms) (hx : ∀ ms, x ≠ .object ms) (hread : ReadsPadded style depth read x b)
    (hget : ∀ seen, get (draft seen) = named seen name b)
    (hset : ∀ seen, set (draft seen) b = draft (name :: seen)) :
    Sets style depth draft ns (.of name get set read) := by
  refine sets_field ?_ hget hset
  intro v hv
  have heq : v = x := (hvalues (name, v) hv x hmem).eq_of_ne hx
  rw [heq]
  exact hread

end Record

end QueueScript.Json
