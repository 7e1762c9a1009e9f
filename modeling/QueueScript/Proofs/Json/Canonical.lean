import QueueScript.Proofs.Json.RoundTrip

namespace QueueScript

theorem Table.mem_of_mem_insert {α : Type} {k : String} {a : α} {t : Table String α}
    {e : String × α} (h : e ∈ insert k a t) : e = (k, a) ∨ e ∈ t := by
  induction t with
  | nil => exact .inl (List.mem_singleton.mp h)
  | cons x t ih =>
      simp only [insert] at h
      split at h
      · exact List.mem_cons.mp h
      · split at h
        · exact (List.mem_cons.mp h).imp_right (List.mem_cons_of_mem x)
        · rcases List.mem_cons.mp h with rfl | h
          · exact .inr (List.mem_cons_self ..)
          · exact (ih h).imp_right (List.mem_cons_of_mem x)

namespace Json

def Number.Fits (x : Number) : Prop :=
  ∀ k, x = .whole k → -(negativeLimit : Int) ≤ k ∧ k < (significandLimit : Int)

theorem Number.fits_ofFloat (negative : Bool) (x : Float) : (ofFloat negative x).Fits := by
  intro k hk
  cases hk

theorem Number.fits_ofWhole (negative : Bool) {n : Nat} (h : n < significandLimit) :
    (ofWhole negative n).Fits := by
  intro k hk
  rw [ofWhole] at hk
  split at hk
  · split at hk
    · rename_i hn
      obtain rfl := Number.whole.inj hk
      omega
    · cases hk
  · obtain rfl := Number.whole.inj hk
    have hlow : (0 : Int) ≤ negativeLimit := by decide
    omega

theorem absorb_lt {limit n : Nat} (h : n < limit) (ds : List Char) :
    (absorb limit n ds).1 < limit := by
  induction ds generalizing n with
  | nil => exact h
  | cons c ds ih =>
      rw [absorb]
      split
      · rename_i hlt
        exact ih hlt
      · exact h

section

variable {negative : Bool} {n : Nat} {e : Int} {s r : List Char} {x : Number}

theorem fits_of_readScaled (h : readScaled negative n e s = .ok (x, r)) : x.Fits := by
  simp only [readScaled] at h
  split at h
  · cases h
    exact Number.fits_ofFloat _ _
  · cases h

theorem fits_of_readExponent (h : readExponent negative n e s = .ok (x, r)) : x.Fits := by
  rw [readExponent_eq] at h
  generalize (exponentSign s).1 = down, (exponentSign s).2 = t at h
  cases t with
  | nil => cases h
  | cons c t =>
      simp only [readPower] at h
      split at h
      · split at h
        · exact fits_of_readScaled h
        · split at h
          · cases h
          · cases h
            exact Number.fits_ofFloat _ _
      · cases h

theorem fits_of_readFraction (h : readFraction negative n e s = .ok (x, r)) : x.Fits := by
  simp only [readFraction] at h
  split at h
  · cases h
  · cases h
  · split at h
    · exact fits_of_readExponent h
    · exact fits_of_readExponent h
    · exact fits_of_readScaled h

theorem fits_of_readNumber (h : readNumber negative s = .ok (x, r)) : x.Fits := by
  cases s with
  | nil => cases h
  | cons c s =>
      simp only [readNumber] at h
      split at h
      · cases h
      · split at h
        · cases h
        · split at h
          · exact fits_of_readFraction h
          · exact fits_of_readExponent h
          · exact fits_of_readExponent h
          · split at h
            · cases h
              exact Number.fits_ofWhole negative (absorb_lt (by decide) _)
            · exact fits_of_readScaled h

end

def Read (read : Reader α) (a : α) : Prop := ∃ s r, read s = .ok (a, r)

theorem read_of_mem_readItems {α : Type} {read : Reader α} {bound : Nat} {first : Bool}
    {s r : List Char} {as : List α} (h : readItems read bound first s = .ok (as, r)) :
    ∀ a ∈ as, Read read a := by
  induction bound generalizing first s as with
  | zero => cases h
  | succ bound ih =>
      simp only [readItems] at h
      obtain ⟨next, _, h⟩ := bind_eq_ok.mp h
      cases next with
      | done t =>
          cases h
          intro a ha
          cases ha
      | more t =>
          obtain ⟨⟨a, t'⟩, ha, h⟩ := bind_eq_ok.mp h
          obtain ⟨⟨as', t''⟩, has, h⟩ := bind_eq_ok.mp h
          cases h
          exact List.forall_mem_cons.mpr ⟨⟨t, t', ha⟩, ih has⟩

theorem readMembers_invariant {σ : Type} {member : σ → String → Reader σ} {P : σ → Prop}
    (hmember : ∀ acc key s acc' r, P acc → member acc key s = .ok (acc', r) → P acc') {bound : Nat}
    {first : Bool} {acc x : σ} {s r : List Char} (hacc : P acc)
    (h : readMembers member bound first acc s = .ok (x, r)) : P x := by
  induction bound generalizing first acc s with
  | zero => cases h
  | succ bound ih =>
      simp only [readMembers] at h
      obtain ⟨next, _, h⟩ := bind_eq_ok.mp h
      cases next with
      | done t =>
          cases h
          exact hacc
      | more t =>
          obtain ⟨⟨key, t'⟩, _, h⟩ := bind_eq_ok.mp h
          obtain ⟨⟨acc', t''⟩, hread, hrest⟩ := bind_eq_ok.mp h
          exact ih (hmember _ _ _ _ _ hacc hread) hrest

theorem sorted_of_readMembers {read : Reader Json} {bound : Nat} {first : Bool} {s r : List Char}
    {ms : Table String Json} (h : readMembers (readMember read) bound first [] s = .ok (ms, r)) :
    Table.Sorted ms ∧ ∀ e ∈ ms, Read read e.2 := by
  have hempty : Table.Sorted ([] : Table String Json) ∧ ∀ e ∈ ([] : Table String Json), Read read e.2 :=
    ⟨List.Pairwise.nil, by simp⟩
  refine readMembers_invariant (P := fun ms => Table.Sorted ms ∧ ∀ e ∈ ms, Read read e.2) ?_ hempty h
  rintro acc key t acc' r ⟨hsorted, hvalues⟩ hmember
  simp only [readMember] at hmember
  obtain ⟨t', _, hmember⟩ := bind_eq_ok.mp hmember
  obtain ⟨⟨v, t''⟩, hv, hmember⟩ := bind_eq_ok.mp hmember
  cases hmember
  refine ⟨Table.sorted_insert key v hsorted, ?_⟩
  intro e he
  rcases Table.mem_of_mem_insert he with rfl | he
  · exact ⟨_, _, hv⟩
  · exact hvalues e he

inductive Plain : Nat → Json → Prop
  | null {n : Nat} : Plain n .null
  | bool {n : Nat} {b : Bool} : Plain n (.bool b)
  | whole {n : Nat} {k : Int} : Plain n (.number (.whole k))
  | string {n : Nat} {s : String} : Plain n (.string s)
  | array {n : Nat} {vs : List Json} : (∀ v ∈ vs, Plain n v) → Plain (n + 1) (.array vs)
  | object {n : Nat} {ms : List (String × Json)} : (∀ e ∈ ms, Plain n e.2) →
      Plain (n + 1) (.object ms)

theorem exact_of_fits {n : Nat} {x : Number} (h : x.Fits) (hp : Plain n (.number x)) :
    Exact n (.number x) := by
  cases hp with
  | whole =>
      obtain ⟨hlow, hhigh⟩ := h _ rfl
      exact .number hlow hhigh

theorem exists_readFrom {depth : Nat} {s r : List Char} {v : Json}
    (h : readValue depth s = .ok (v, r)) :
    ∃ c t, skipSpace s = c :: t ∧ readFrom depth c t = .ok (v, r) := by
  cases hs : skipSpace s with
  | nil =>
      rw [readValue.eq_def] at h
      simp only [hs] at h
      cases h
  | cons c t => exact ⟨c, t, rfl, by rwa [readValue_of_skipSpace hs] at h⟩

theorem exact_of_read {depth n : Nat} {v : Json} (h : Read (readValue depth) v) (hp : Plain n v) :
    Exact n v := by
  -- the reader's limit carries the induction; how deep the value is comes from `hp` alone
  induction depth using Nat.strong_induction_on generalizing n v with
  | _ depth ih =>
      obtain ⟨s, r, h⟩ := h
      obtain ⟨c, t, _, h⟩ := exists_readFrom h
      simp only [readFrom] at h
      split at h
      · obtain ⟨_, rfl⟩ := readLiteral_eq_ok h
        exact .null
      split at h
      · obtain ⟨_, rfl⟩ := readLiteral_eq_ok h
        exact .bool
      split at h
      · obtain ⟨_, rfl⟩ := readLiteral_eq_ok h
        exact .bool
      split at h
      · obtain ⟨_, _, h⟩ := bind_eq_ok.mp h
        cases h
        exact .string
      split at h
      · obtain ⟨_, hx, h⟩ := bind_eq_ok.mp h
        cases h
        exact exact_of_fits (fits_of_readNumber hx) hp
      split at h
      · cases depth with
        | zero => cases h
        | succ m =>
            obtain ⟨_, hvs, h⟩ := bind_eq_ok.mp h
            cases h
            cases hp with
            | array hp =>
                have hread := read_of_mem_readItems hvs
                exact .array (fun v hv => ih m (Nat.lt_succ_self m) (hread v hv) (hp v hv))
      split at h
      · cases depth with
        | zero => cases h
        | succ m =>
            obtain ⟨_, hms, h⟩ := bind_eq_ok.mp h
            cases h
            cases hp with
            | object hp =>
                obtain ⟨hsorted, hread⟩ := sorted_of_readMembers hms
                exact .object hsorted
                  (fun e he => ih m (Nat.lt_succ_self m) (hread e he) (hp e he))
      split at h
      · obtain ⟨_, hx, h⟩ := bind_eq_ok.mp h
        cases h
        exact exact_of_fits (fits_of_readNumber hx) hp
      · cases h

end Json

end QueueScript
