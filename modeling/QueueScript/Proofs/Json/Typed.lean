import QueueScript.Json.Record
import QueueScript.Proofs.Json.RoundTrip

namespace QueueScript.Json

open Text (isDigit)

variable {style : Style} {depth : Nat} {α β δ : Type}

def ReadsPadded (style : Style) (depth : Nat) (read : Reader α) (v : Json) (a : α) : Prop :=
  ∀ w r, Spaces w → EndsNumber r → read (w ++ (write style depth v ++ r)) = .ok (a, r)

theorem ReadsPadded.reads {read : Reader α} {v : Json} {a : α}
    (h : ReadsPadded style depth read v a) : Reads style depth read v a := by
  intro r hr
  exact h [] r (by simp [Spaces]) hr

theorem Exact.readsPadded (hs : style.Blank) {n : Nat} {v : Json} (h : Exact n v) :
    ReadsPadded style depth (readValue n) v v := by
  intro w r hw hr
  rw [readValue_append_spaces hw]
  exact h.reads hs depth r hr

theorem readsPadded_text (s : String) : ReadsPadded style depth readText (.string s) s := by
  intro w r hw _
  obtain ⟨q, hq, hspells⟩ := exists_writeString_eq s.toList
  rw [write, hq, List.cons_append]
  simp only [readText, skipSpace_append_cons hw (show isSpace '"' = false by decide),
    readString_append hspells r]
  simp only [bind, Except.bind, String.ofList_toList]
  rfl

theorem readsPadded_bool (b : Bool) : ReadsPadded style depth readBool (.bool b) b := by
  intro w r hw _
  cases b with
  | false =>
      rw [write, List.cons_append, readBool, skipSpace_append_cons hw (by decide)]
      rfl
  | true =>
      rw [write, List.cons_append, readBool, skipSpace_append_cons hw (by decide)]
      rfl

theorem exists_write_ofNat_eq_cons (style : Style) (depth n : Nat) :
    ∃ c s, write style depth (.ofNat n) = c :: s ∧ isDigit c = true := by
  obtain ⟨c, s, hd, hc, _⟩ := Text.exists_decimal_eq_cons n
  exact ⟨c, s, by rw [ofNat, write]; exact hd, hc⟩

theorem readsPadded_nat {limit n : Nat} (expected : String) (hn : n < limit)
    (hlimit : limit ≤ significandLimit) :
    ReadsPadded style depth (readNat limit expected) (.ofNat n) n := by
  intro w r hw hr
  have hnumber := reads_number style depth 0 (k := (n : Int)) (by omega) (by omega) r hr
  obtain ⟨c, s, hwrite, hc⟩ := exists_write_ofNat_eq_cons style depth n
  rw [ofNat] at hwrite ⊢
  rw [hwrite, List.cons_append] at hnumber ⊢
  simp only [readNat, skipSpace_append_cons hw (isSpace_of_isDigit hc), hc, or_true, if_true, hnumber]
  have hbound : 0 ≤ (n : Int) ∧ (n : Int) < limit := by omega
  simp only [bind, Except.bind, hbound, and_self, if_true]
  rfl

theorem readsPadded_line {n : Nat} (h : n < lineLimit) :
    ReadsPadded style depth readLine (.ofNat n) n := readsPadded_nat "usize" h (Nat.le_refl _)

theorem readsPadded_count (n : UInt32) : ReadsPadded style depth readCount (.ofNat n.toNat) n := by
  intro w r hw hr
  have hnat : ReadsPadded style depth (readNat Text.countLimit "u32") (.ofNat n.toNat) n.toNat :=
    readsPadded_nat "u32" n.toNat_lt (by decide)
  simp only [readCount, hnat w r hw hr]
  simp only [bind, Except.bind, UInt32.ofNat_toNat]
  rfl

theorem readsPadded_ofOption {read : Reader α} {f : α → Json} {o : Option α}
    (hstart : ∀ a, o = some a →
      ∃ c s, write style depth (f a) = c :: s ∧ isSpace c = false ∧ c ≠ 'n')
    (h : ∀ a, o = some a → ReadsPadded style depth read (f a) a) :
    ReadsPadded style depth (readOption read) (ofOption f o) o := by
  intro w r hw hr
  cases o with
  | none =>
      rw [ofOption, write, List.cons_append]
      simp only [readOption, skipSpace_append_cons hw (show isSpace 'n' = false by decide)]
      rfl
  | some a =>
      obtain ⟨c, s, hwrite, hc, hnull⟩ := hstart a rfl
      have hread := (h a rfl).reads r hr
      rw [hwrite, List.cons_append] at hread
      rw [ofOption, hwrite, List.cons_append]
      simp only [readOption, skipSpace_append_cons hw hc]
      split
      · rename_i hcons
        exact absurd (List.cons.inj hcons).1 hnull
      · rw [hread]
        rfl

theorem readsPadded_list {read : Reader α} {f : α → Json} {as : List α} (hs : style.Blank)
    (hstart : ∀ a ∈ as, StartsValue (write style (depth + 1) (f a)))
    (h : ∀ a ∈ as, ReadsPadded style (depth + 1) read (f a) a) :
    ReadsPadded style depth (readList read) (.array (as.map f)) as := by
  intro w r hw _
  obtain ⟨s, hwrite, hitems⟩ := readItems_write hs depth hstart (fun a ha => (h a ha).reads) r
  rw [hwrite, List.cons_append]
  simp only [readList, skipSpace_append_cons hw (show isSpace '[' = false by decide), hitems]

theorem startsValue_object (style : Style) (depth : Nat) (ms : List (String × Json)) :
    StartsValue (write style depth (.object ms)) := by
  obtain ⟨s, hwrite⟩ := exists_write_object_eq_cons style depth ms
  exact ⟨'{', s, hwrite, by decide, by decide⟩

theorem readName_append {known : List (String × α)} {name : String} {a : α} {q : List Char}
    (hq : Spells q name.toList) (h : known.lookup name = some a) (r : List Char) :
    readName known (q ++ r) = .ok (a, r) := by
  simp only [readName, readString_append hq r]
  simp only [bind, Except.bind, String.ofList_toList, h]
  rfl

theorem readsPadded_choice {known : List (String × α)} {name : String} {a : α}
    (h : known.lookup name = some a) :
    ReadsPadded style depth (readChoice known) (.string name) a := by
  intro w r hw _
  obtain ⟨q, hq, hspells⟩ := exists_writeString_eq name.toList
  rw [write, hq, List.cons_append]
  simp only [readChoice, skipSpace_append_cons hw (show isSpace '"' = false by decide)]
  exact readName_append hspells h r

theorem readsPadded_tagged {known : List (String × Reader α)} {read : Reader α} {name : String}
    {v : Json} {a : α} (hs : style.Blank) (hname : known.lookup name = some read)
    (h : ReadsPadded style (depth + 1) read v a) :
    ReadsPadded style depth (readTagged known) (.object [(name, v)]) a := by
  intro w r hw _
  obtain ⟨q, hq, hspells⟩ := exists_writeString_eq name.toList
  obtain ⟨u, hcolon, hu⟩ :=
    colon_append hs (write style (depth + 1) v ++ (style.gap depth ++ '}' :: r))
  have hend : EndsNumber (style.gap depth ++ '}' :: r) :=
    (hs.gap depth).endsNumber_append (endsNumber_cons (by decide) r)
  have hclose : closeTagged (style.gap depth ++ '}' :: r) = .ok r := by
    simp only [closeTagged, skipSpace_append_cons (hs.gap depth) (show isSpace '}' = false by decide)]
  simp only [write, writeMembers, hq, List.cons_append, List.append_assoc, List.nil_append]
  simp only [readTagged, skipSpace_append_cons hw (show isSpace '{' = false by decide), readTag,
    skipSpace_append_cons (hs.gap (depth + 1)) (show isSpace '"' = false by decide),
    readName_append hspells hname]
  simp only [bind, Except.bind, hcolon, pure, Except.pure, h u _ hu hend, hclose]

namespace Record

variable {f : Record δ α}

theorem readsPadded (hs : style.Blank) {ms : List (String × Json)} {d : δ} {a : α}
    (h : Gathers style (depth + 1) f.readMember f.empty ms d) (hbuild : f.build d = .ok a) :
    ReadsPadded style depth f.read (.object ms) a := by
  intro w r hw _
  obtain ⟨s, hwrite, hmembers⟩ := readMembers_write hs h r
  rw [hwrite, List.cons_append]
  simp only [read, skipSpace_append_cons hw (show isSpace '{' = false by decide), hmembers]
  simp only [bind, Except.bind, finish, hbuild]

theorem gathers_field (hs : style.Blank) {key : String} {get : δ → Option β} {set : δ → β → δ}
    {read : Reader β} {d x : δ} {v : Json} {b : β} {ms : List (String × Json)}
    (hfind : f.fields.find? (fun field => field.name == key) = some (.of key get set read))
    (hget : get d = none) (hread : ReadsPadded style depth read v b)
    (hrest : Gathers style depth f.readMember (set d b) ms x) :
    Gathers style depth f.readMember d ((key, v) :: ms) x := by
  refine .cons ?_ hrest
  intro r hr
  obtain ⟨w, hcolon, hw⟩ := colon_append hs (write style depth v ++ r)
  have hunset : (RecordField.of key get set read).isSet d = false := by
    change (get d).isSome = false
    rw [hget, Option.isSome_none]
  simp only [readMember, hfind, hunset, hcolon]
  simp only [bind, Except.bind, RecordField.of, hread w r hw hr]
  rfl

end Record

end QueueScript.Json
