import QueueScript.Proofs.Text.Blank
import QueueScript.Script.Line

namespace QueueScript

theorem Kind.ofKeyword?_keyword (k : Kind) : Kind.ofKeyword? k.keyword = some k := by
  cases k <;> rfl

theorem Kind.eq_keyword_of_ofKeyword? {w : String} {k : Kind} (h : Kind.ofKeyword? w = some k) :
    w = k.keyword := by
  have hk := List.find?_some h
  exact (beq_iff_eq.mp hk).symm

theorem ParameterKey.ofName?_name (k : ParameterKey) : ParameterKey.ofName? k.name = some k := by
  cases k <;> rfl

theorem ParameterKey.eq_name_of_ofName? {w : String} {k : ParameterKey}
    (h : ParameterKey.ofName? w = some k) : w = k.name := by
  have hk := List.find?_some h
  exact (beq_iff_eq.mp hk).symm

end QueueScript

namespace QueueScript.Script

open Text (trim trimStart isBlank nextWord?)

theorem header?_eq_some {line : Line} {k : Kind} {t : String} (h : header? line = some (k, t)) :
    ∃ rest target after, nextWord? line = some (k.keyword.toList, rest) ∧
      nextWord? rest = some (target, after) ∧ t = String.ofList target := by
  simp only [header?, Option.bind_eq_bind, Option.bind_eq_some_iff, Option.pure_def,
    Option.some.injEq, Prod.mk.injEq] at h
  obtain ⟨⟨word, rest⟩, hword, kind, hkind, ⟨target, after⟩, htarget, rfl, rfl⟩ := h
  have hw : word = kind.keyword.toList := by
    rw [← Kind.eq_keyword_of_ofKeyword? hkind, String.toList_ofList]
  exact ⟨rest, target, after, hw ▸ hword, htarget, rfl⟩

theorem head?_of_header? {line : Line} {k : Kind} {t : String} (h : header? line = some (k, t)) :
    (trimStart line).head? = k.keyword.toList.head? := by
  obtain ⟨rest, _, _, hword, _⟩ := header?_eq_some h
  exact (Text.head?_of_nextWord? hword).symm

theorem trimStart_trim (line : Line) : trimStart (trim line) = trim line := by
  cases h : trim line with
  | nil => rfl
  | cons c r =>
      have hc : isBlank c = false :=
        Text.isBlank_of_head?_trimStart (by rw [← Text.head?_trim line, h]; rfl)
      simp [trimStart, hc]

theorem head?_trim_of_header? {l : Line} {k : Kind} {t : String}
    (h : header? (trim l) = some (k, t)) :
    (trim l).head? = some 'S' ∨ (trim l).head? = some 'R' ∨ (trim l).head? = some 'P' := by
  have hhead := head?_of_header? h
  rw [trimStart_trim] at hhead
  rw [hhead]
  cases k <;> decide

theorem classify_eq_header_iff {line : Line} {k : Kind} {t : String} :
    classify line = .header k t ↔ header? (trim line) = some (k, t) := by
  simp only [classify]
  split
  · rename_i h
    simp [h, header?, nextWord?, trimStart]
  · rename_i r h
    constructor
    · intro hc
      split at hc <;> cases hc
    · intro hh
      have := head?_trim_of_header? hh
      simp [h] at this
  · rename_i c r hr h
    rw [h]
    cases header? (c :: r) with
    | none => simp
    | some p => simp [Prod.ext_iff]

theorem classify_eq_delimiter_iff {line : Line} :
    classify line = .delimiter ↔ trim line = ['#', '#', '#'] := by
  simp only [classify]
  split
  · rename_i h
    simp [h]
  · rename_i r h
    rw [h]
    by_cases hr : r = ['#', '#'] <;> simp [hr]
  · rename_i c r hc h
    constructor
    · intro hd
      split at hd <;> cases hd
    · intro hd
      rw [h] at hd
      exact absurd (List.cons.inj hd).1 (fun e => hc (by rw [e]))

theorem classify_eq_silent_of_trim {line : Line} (h : trim line = []) : classify line = .silent := by
  simp only [classify, h]

theorem classify_eq_content {line : Line} {c : Char} (h : (trim line).head? = some c)
    (hc : c ≠ '#' ∧ c ≠ 'S' ∧ c ≠ 'R' ∧ c ≠ 'P') : classify line = .content := by
  obtain ⟨hn, hs, hr, hp⟩ := hc
  cases ht : trim line with
  | nil => simp [ht] at h
  | cons x xs =>
      obtain rfl : x = c := by simpa [ht] using h
      have hnone : header? (x :: xs) = none := by
        cases hh : header? (x :: xs) with
        | none => rfl
        | some p =>
            have hhead := head?_trim_of_header? (l := line) (k := p.1) (t := p.2) (by rw [ht, hh])
            simp [ht, hs, hr, hp] at hhead
      simp only [classify, ht, hnone]

theorem keyword_plain (k : Kind) :
    k.keyword.toList ≠ [] ∧ ∀ c ∈ k.keyword.toList, isBlank c = false := by
  have hall : k.keyword.toList.all (fun c => !isBlank c) = true := by cases k <;> decide
  refine ⟨by cases k <;> decide, ?_⟩
  simpa using hall

def IsTarget (t : String) : Prop := t ≠ "" ∧ ∀ c ∈ t.toList, isBlank c = false

instance (t : String) : Decidable (IsTarget t) :=
  decidable_of_iff (t ≠ "" ∧ t.toList.all (fun c => !isBlank c) = true) (by simp [IsTarget])

theorem IsTarget.not_mem_feed {t : String} (h : IsTarget t) : '\n' ∉ t.toList := by
  intro hm
  exact absurd (h.2 '\n' hm) (by decide)

theorem isTarget_of_header? {line : Line} {k : Kind} {t : String}
    (h : header? line = some (k, t)) : IsTarget t := by
  obtain ⟨_, target, _, _, htarget, rfl⟩ := header?_eq_some h
  obtain ⟨hne, hplain⟩ := Text.plain_of_nextWord? htarget
  refine ⟨?_, ?_⟩
  · simpa using hne
  · rwa [String.toList_ofList]

def headerLine (k : Kind) (t : String) : Line := k.keyword.toList ++ ' ' :: t.toList

theorem classify_headerLine (k : Kind) {t : String} (h : IsTarget t) :
    classify (headerLine k t) = .header k t := by
  obtain ⟨hkne, hk⟩ := keyword_plain k
  obtain ⟨hne, ht⟩ := h
  have hne : t.toList ≠ [] := by simpa using hne
  have htrim : trim (headerLine k t) = headerLine k t := by
    refine Text.trim_append hkne (by simp) ?_ ?_
    · intro c hc
      exact hk c (List.mem_of_head? hc)
    · intro c hc
      rw [← List.singleton_append, List.getLast?_append_of_ne_nil _ hne] at hc
      exact ht c (List.mem_of_getLast? hc)
  have hword : nextWord? (headerLine k t) = some (k.keyword.toList, ' ' :: t.toList) := by
    refine Text.nextWord?_append hkne hk ?_
    intro c hc
    obtain rfl : ' ' = c := by simpa using hc
    decide
  have htarget : nextWord? (' ' :: t.toList) = some (t.toList, []) := by
    have hnext := Text.nextWord?_append hne ht (s := []) (by simp)
    rw [List.append_nil] at hnext
    rw [← hnext]
    simp only [nextWord?, Text.trimStart_cons_of_blank (show isBlank ' ' = true by decide)]
  rw [classify_eq_header_iff, htrim, header?]
  simp only [hword, htarget, String.ofList_toList, Kind.ofKeyword?_keyword, Option.bind_eq_bind,
    Option.bind_some, Option.pure_def]

theorem splitColon?_eq_some_iff {line key value : Line} :
    splitColon? line = some (key, value) ↔ line = key ++ ':' :: value ∧ ':' ∉ key := by
  induction line generalizing key with
  | nil => simp [splitColon?]
  | cons c line ih =>
      simp only [splitColon?]
      by_cases hc : c = ':'
      · subst hc
        cases key with
        | nil => simp
        | cons x key =>
            refine ⟨by simp, ?_⟩
            rintro ⟨hline, hnot⟩
            obtain ⟨rfl, _⟩ := List.cons.inj hline
            exact absurd (List.mem_cons_self ..) hnot
      · simp only [hc, if_false, Option.map_eq_some_iff, Prod.mk.injEq, Prod.exists]
        constructor
        · rintro ⟨k, v, hk, rfl, rfl⟩
          obtain ⟨rfl, hnot⟩ := ih.mp hk
          exact ⟨rfl, by simp [hnot, Ne.symm hc]⟩
        · rintro ⟨hline, hnot⟩
          cases key with
          | nil => exact absurd (List.cons.inj hline).1 hc
          | cons x key =>
              obtain ⟨rfl, rfl⟩ := List.cons.inj hline
              have hkey : ':' ∉ key := fun hm => hnot (List.mem_cons_of_mem _ hm)
              exact ⟨key, value, ih.mpr ⟨rfl, hkey⟩, rfl, rfl⟩

theorem eq_append_of_parameter? {line : Line} {k : ParameterKey} {v : String}
    (h : parameter? line = some (k, v)) : ∃ value, line = k.name.toList ++ ':' :: value := by
  simp only [parameter?, Option.bind_eq_bind, Option.bind_eq_some_iff] at h
  obtain ⟨⟨name, value⟩, hsplit, key, hkey, hvalue⟩ := h
  obtain ⟨rfl, _⟩ := splitColon?_eq_some_iff.mp hsplit
  obtain rfl : key = k := by
    split at hvalue
    · cases hvalue
    · exact (Prod.mk.inj (Option.some.inj hvalue)).1
  refine ⟨value, ?_⟩
  rw [← ParameterKey.eq_name_of_ofName? hkey, String.toList_ofList]

theorem not_blank_of_parameter? {line : Line} {k : ParameterKey} {v : String}
    (h : parameter? line = some (k, v)) : ¬Text.Blank v := by
  simp only [parameter?, Option.bind_eq_bind, Option.bind_eq_some_iff] at h
  obtain ⟨⟨name, value⟩, _, key, _, hvalue⟩ := h
  split at hvalue
  · cases hvalue
  · rename_i hne
    obtain ⟨_, rfl⟩ := Prod.mk.inj (Option.some.inj hvalue)
    exact Text.not_blank_trim (by simpa using hne)

theorem head?_of_parameter? {line : Line} {k : ParameterKey} {v : String}
    (h : parameter? line = some (k, v)) : line.head? = k.name.toList.head? := by
  obtain ⟨value, rfl⟩ := eq_append_of_parameter? h
  have hne : k.name.toList ≠ [] := by cases k <;> decide
  exact List.head?_append_of_ne_nil _ hne

theorem parameter?_of_brace {line : Line} (h : line.head? = some '{') : parameter? line = none := by
  cases hp : parameter? line with
  | none => rfl
  | some p =>
      obtain ⟨k, v⟩ := p
      have hhead := head?_of_parameter? hp
      rw [h] at hhead
      cases k <;> exact absurd hhead (by decide)

theorem name_plain (k : ParameterKey) : k.name.toList ≠ [] ∧ ':' ∉ k.name.toList := by
  cases k <;> decide

theorem head?_name (k : ParameterKey) {c : Char} (h : k.name.toList.head? = some c) :
    isBlank c = false ∧ c ≠ '#' ∧ c ≠ 'S' ∧ c ≠ 'R' ∧ c ≠ 'P' := by
  have hall : k.name.toList.head?.all
      (fun c => !isBlank c && c != '#' && c != 'S' && c != 'R' && c != 'P') = true := by
    cases k <;> decide
  rw [h] at hall
  simpa [and_assoc] using hall

def parameterLine (k : ParameterKey) (v : String) : Line := k.name.toList ++ ':' :: ' ' :: v.toList

section

variable {v : String} (hne : v.toList ≠ []) (ht : trim v.toList = v.toList)
include hne ht

theorem trim_parameterLine (k : ParameterKey) : trim (parameterLine k v) = parameterLine k v := by
  refine Text.trim_append (name_plain k).1 (by simp) (fun c hc => (head?_name k hc).1) ?_
  intro c hc
  have hlast : (':' :: ' ' :: v.toList).getLast? = (trim v.toList).getLast? := by
    rw [ht]
    exact List.getLast?_append_of_ne_nil [':', ' '] hne
  exact Text.isBlank_of_getLast?_trim (hlast ▸ hc)

theorem classify_parameterLine (k : ParameterKey) : classify (parameterLine k v) = .content := by
  have hhead : (parameterLine k v).head? = k.name.toList.head? :=
    List.head?_append_of_ne_nil _ (name_plain k).1
  cases hk : k.name.toList.head? with
  | none => exact absurd (List.head?_eq_none_iff.mp hk) (name_plain k).1
  | some c =>
      refine classify_eq_content ?_ (head?_name k hk).2
      rw [trim_parameterLine hne ht, hhead, hk]

theorem parameter?_parameterLine (k : ParameterKey) :
    parameter? (parameterLine k v) = some (k, v) := by
  have hsplit : splitColon? (parameterLine k v) = some (k.name.toList, ' ' :: v.toList) :=
    splitColon?_eq_some_iff.mpr ⟨rfl, (name_plain k).2⟩
  have hvalue : trim (' ' :: v.toList) = v.toList := by
    rw [trim, Text.trimStart_cons_of_blank (by decide), ← trim, ht]
  have hfull : v.toList.isEmpty = false := by simpa using hne
  simp only [parameter?, hsplit, Option.bind_eq_bind, Option.bind_some, String.ofList_toList,
    ParameterKey.ofName?_name, hvalue, hfull]
  simp

end

end QueueScript.Script
