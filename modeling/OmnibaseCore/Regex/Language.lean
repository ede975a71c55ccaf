import Mathlib.Computability.Language
import OmnibaseCore.Regex.Basic

/-!
# The texts that a pattern takes

`language` forgets the order in which a run tries its ways. For a plain pattern, one without
anchors and groups, it says which ways there are: `exists_of_run` and `isSome_run`. A pattern whose
pieces can be told apart by their characters has one way at most, and then the two theorems
determine the match.
-/

namespace OmnibaseCore

open Computability

namespace Regex

/-- The texts that a pattern takes. Anchors take nothing. -/
def language : Regex → Language Char
  | epsilon => 1
  | chars p => {w | ∃ c, p c = true ∧ w = [c]}
  | seq r t => r.language * t.language
  | alt r t => r.language + t.language
  | star r => r.language∗
  | group _ r => r.language
  | start => 1
  | finish => 1

/-- A pattern without anchors and groups. -/
def Plain : Regex → Prop
  | epsilon => True
  | chars _ => True
  | seq r t => r.Plain ∧ t.Plain
  | alt r t => r.Plain ∧ t.Plain
  | star r => r.Plain
  | group _ _ => False
  | start => False
  | finish => False

/-! ## Membership -/

section
variable {r t : Regex} {p : Char → Bool} {w : List Char}

theorem mem_language_chars : w ∈ (chars p).language ↔ ∃ c, p c = true ∧ w = [c] := Iff.rfl

theorem mem_language_char {c : Char} : w ∈ (char c).language ↔ w = [c] := by
  unfold char
  rw [mem_language_chars]
  simp

theorem mem_language_seq :
    w ∈ (seq r t).language ↔ ∃ u ∈ r.language, ∃ v ∈ t.language, u ++ v = w :=
  Language.mem_mul

theorem mem_language_alt : w ∈ (alt r t).language ↔ w ∈ r.language ∨ w ∈ t.language :=
  Iff.rfl

theorem mem_language_star_chars : w ∈ (star (chars p)).language ↔ ∀ c ∈ w, p c = true := by
  constructor
  · intro h c hc
    rcases Language.mem_kstar.mp h with ⟨l, rfl, hl⟩
    rcases List.mem_flatten.mp hc with ⟨u, hu, hcu⟩
    rcases hl u hu with ⟨d, hd, rfl⟩
    rwa [List.mem_singleton.mp hcu]
  · intro h
    refine Language.mem_kstar.mpr ⟨w.map fun c => [c], ?_, ?_⟩
    · induction w with
      | nil => rfl
      | cons c w ih =>
        rw [List.map_cons, List.flatten_cons, ← ih fun d hd => h d (List.mem_cons_of_mem c hd)]
        rfl
    · intro u hu
      rcases List.mem_map.mp hu with ⟨c, hc, rfl⟩
      exact ⟨c, h c hc, rfl⟩

theorem mem_language_plus_chars :
    w ∈ (plus (chars p)).language ↔ w ≠ [] ∧ ∀ c ∈ w, p c = true := by
  unfold plus
  rw [mem_language_seq]
  constructor
  · rintro ⟨u, ⟨c, hc, rfl⟩, v, hv, rfl⟩
    rw [mem_language_star_chars] at hv
    refine ⟨by simp, fun d hd => ?_⟩
    rcases List.mem_cons.mp hd with rfl | hd
    · exact hc
    · exact hv d hd
  · rintro ⟨hne, hall⟩
    cases w with
    | nil => exact absurd rfl hne
    | cons c w =>
      rw [List.forall_mem_cons] at hall
      exact ⟨[c], ⟨c, hall.1, rfl⟩, w, mem_language_star_chars.mpr hall.2, rfl⟩

end

/-! ## Runs -/

section
variable {β : Type}

theorem Place.rest_advance (s : Place) (n : ℕ) : (s.advance n).rest = s.rest.drop n := rfl

theorem isSome_orElse_iff {x y : Option β} :
    (x <|> y).isSome = true ↔ x.isSome = true ∨ y.isSome = true := by
  cases x <;> simp

variable {body : Place → (Place → Option β) → Option β}

theorem iterate_eq_some {L : Language Char} (hbody : ∀ s k b, body s k = some b →
      ∃ w ∈ L, w <+: s.rest ∧ k (s.advance w.length) = some b) :
    ∀ (n : ℕ) (s : Place) (k : Place → Option β) (b : β), iterate body n s k = some b →
      ∃ w ∈ L∗, w <+: s.rest ∧ k (s.advance w.length) = some b := by
  intro n
  induction n with
  | zero =>
    intro s k b h
    exact ⟨[], Language.nil_mem_kstar L, List.nil_prefix, by rwa [List.length_nil, s.advance_zero]⟩
  | succ n ih =>
    intro s k b h
    rw [iterate, Option.orElse_eq_some] at h
    rcases h with h | ⟨-, h⟩
    · rcases hbody s _ b h with ⟨u, hu, ⟨rest, hrest⟩, hk⟩
      split_ifs at hk
      rcases ih _ k b hk with ⟨v, hv, hprefix, hk⟩
      rw [Place.rest_advance, ← hrest, List.drop_left] at hprefix
      refine ⟨u ++ v, ?_, ?_, ?_⟩
      · rcases Language.mem_kstar.mp hv with ⟨l, rfl, hl⟩
        refine Language.mem_kstar.mpr ⟨u :: l, rfl, ?_⟩
        rw [List.forall_mem_cons]
        exact ⟨hu, hl⟩
      · rw [← hrest]
        exact (List.prefix_append_right_inj u).mpr hprefix
      · rwa [List.length_append, ← advance_advance]
    · exact ⟨[], Language.nil_mem_kstar L, List.nil_prefix,
        by rwa [List.length_nil, s.advance_zero]⟩

variable {s : Place} {k : Place → Option β}

variable {b : β}

/-- A run through a plain pattern takes one of its texts. -/
theorem exists_of_run {r : Regex} (hr : r.Plain) (h : r.run s k = some b) :
    ∃ w ∈ r.language, w <+: s.rest ∧ k (s.advance w.length) = some b := by
  induction r generalizing s k b with
  | epsilon => exact ⟨[], rfl, List.nil_prefix, by rwa [List.length_nil, s.advance_zero]⟩
  | chars p =>
    cases hrest : s.rest with
    | nil =>
      rw [run_chars_nil hrest] at h
      exact nomatch h
    | cons c rest =>
      rw [run_chars_cons hrest] at h
      split_ifs at h with hc
      exact ⟨[c], ⟨c, hc, rfl⟩, ⟨rest, rfl⟩, h⟩
  | seq r t ihr iht =>
    rw [run_seq] at h
    rcases ihr hr.1 h with ⟨u, hu, ⟨rest, hrest⟩, h⟩
    rcases iht hr.2 h with ⟨v, hv, hprefix, h⟩
    rw [Place.rest_advance, ← hrest, List.drop_left] at hprefix
    refine ⟨u ++ v, mem_language_seq.mpr ⟨u, hu, v, hv, rfl⟩, ?_, ?_⟩
    · rw [← hrest]
      exact (List.prefix_append_right_inj u).mpr hprefix
    · rwa [List.length_append, ← advance_advance]
  | alt r t ihr iht =>
    rw [run_alt, Option.orElse_eq_some] at h
    rcases h with h | ⟨-, h⟩
    · rcases ihr hr.1 h with ⟨w, hw, hk⟩
      exact ⟨w, Or.inl hw, hk⟩
    · rcases iht hr.2 h with ⟨w, hw, hk⟩
      exact ⟨w, Or.inr hw, hk⟩
  | star r ih => exact iterate_eq_some (fun s k b hbody => ih hr hbody) _ s k b h
  | group _ _ _ => exact hr.elim
  | start => exact hr.elim
  | finish => exact hr.elim

theorem isSome_iterate {L : Language Char}
    (hbody : ∀ s k, ∀ w ∈ L, w <+: s.rest → (k (s.advance w.length)).isSome = true →
      (body s k).isSome = true) (l : List (List Char)) :
    (∀ u ∈ l, u ∈ L ∧ u ≠ []) → ∀ (n : ℕ) (s : Place) (k : Place → Option β),
      l.flatten <+: s.rest → s.rest.length ≤ n →
      (k (s.advance l.flatten.length)).isSome = true → (iterate body n s k).isSome = true := by
  induction l with
  | nil =>
    intro _ n s k _ _ hk
    rw [List.flatten_nil, List.length_nil, s.advance_zero] at hk
    cases n with
    | zero => exact hk
    | succ n =>
      rw [iterate, isSome_orElse_iff]
      exact Or.inr hk
  | cons u l ih =>
    intro hl n s k hprefix hn hk
    rw [List.forall_mem_cons] at hl
    rw [List.flatten_cons] at hprefix hk
    rcases hprefix with ⟨rest, hrest⟩
    rw [List.append_assoc] at hrest
    have hpos : 0 < u.length := List.length_pos_iff.mpr hl.1.2
    have hlength := congrArg List.length hrest
    rw [List.length_append, List.length_append] at hlength
    have hadvance : (s.advance u.length).rest = l.flatten ++ rest := by
      rw [Place.rest_advance, ← hrest, List.drop_left]
    cases n with
    | zero => omega
    | succ n =>
      rw [iterate, isSome_orElse_iff]
      refine Or.inl (hbody s _ u hl.1.1 ⟨_, hrest⟩ ?_)
      have hless : (s.advance u.length).rest.length < s.rest.length := by
        rw [hadvance, List.length_append]
        omega
      rw [if_pos hless]
      apply ih hl.2
      · exact ⟨rest, hadvance.symm⟩
      · omega
      · rwa [advance_advance, ← List.length_append]

/-- A plain pattern that can take a text that the continuation accepts does not fail. -/
theorem isSome_run {r : Regex} (hr : r.Plain) {w : List Char} (hw : w ∈ r.language)
    (hstarts : w <+: s.rest) (hk : (k (s.advance w.length)).isSome = true) :
    (r.run s k).isSome = true := by
  induction r generalizing s k w with
  | epsilon =>
    rw [show w = [] from hw, List.length_nil, s.advance_zero] at hk
    exact hk
  | chars p =>
    rcases hw with ⟨c, hc, rfl⟩
    rcases hstarts with ⟨rest, hrest⟩
    rw [run_chars_cons hrest.symm, if_pos hc]
    exact hk
  | seq r t ihr iht =>
    rcases mem_language_seq.mp hw with ⟨u, hu, v, hv, rfl⟩
    rcases hstarts with ⟨rest, hrest⟩
    rw [List.append_assoc] at hrest
    rw [run_seq]
    apply ihr hr.1 hu ⟨_, hrest⟩
    apply iht hr.2 hv
    · rw [Place.rest_advance, ← hrest, List.drop_left]
      exact List.prefix_append v rest
    · rwa [advance_advance, ← List.length_append]
  | alt r t ihr iht =>
    rw [run_alt, isSome_orElse_iff]
    rcases hw with hw | hw
    · exact Or.inl (ihr hr.1 hw hstarts hk)
    · exact Or.inr (iht hr.2 hw hstarts hk)
  | star r ih =>
    rcases Language.mem_kstar_iff_exists_nonempty.mp hw with ⟨l, rfl, hl⟩
    exact isSome_iterate (fun s k w hw hstarts hk => ih hr hw hstarts hk) l hl _ s k hstarts
      le_rfl hk
  | group _ _ _ => exact hr.elim
  | start => exact hr.elim
  | finish => exact hr.elim

/-! ## Pieces of a pattern

What a run does at a piece, said in terms of what is left of the text. -/

theorem exists_of_run_char {c : Char} (h : (char c).run s k = some b) :
    ∃ rest, s.rest = c :: rest ∧ ∃ atStart, k ⟨atStart, rest, s.groups⟩ = some b := by
  rcases exists_of_run (r := char c) trivial h with ⟨w, hw, ⟨rest, hrest⟩, hk⟩
  rw [mem_language_char.mp hw] at hrest hk
  have hplace : s.advance [c].length = ⟨s.atStart && [c].length = 0, rest, s.groups⟩ := by
    unfold Place.advance
    rw [← hrest, List.drop_left]
  exact ⟨rest, hrest.symm, _, hplace ▸ hk⟩

theorem isSome_run_char {c : Char} {rest : List Char} (hrest : s.rest = c :: rest)
    (hk : ∀ atStart, (k ⟨atStart, rest, s.groups⟩).isSome = true) :
    ((char c).run s k).isSome = true := by
  unfold char
  rw [run_chars_cons hrest, if_pos (decide_eq_true rfl)]
  have hplace : s.advance 1 = ⟨s.atStart && 1 = 0, rest, s.groups⟩ := by
    unfold Place.advance
    rw [hrest]
    rfl
  rw [hplace]
  exact hk _

section
variable {name : String} {r : Regex} (hr : r.Plain)
include hr

theorem exists_of_run_group {s : Place} {k : Place → Option β}
    (h : (group name r).run s k = some b) :
    ∃ w ∈ r.language, ∃ rest, s.rest = w ++ rest ∧
      ∃ atStart, k ⟨atStart, rest, (name, String.ofList w) :: s.groups⟩ = some b := by
  rcases exists_of_run hr h with ⟨w, hw, ⟨rest, hrest⟩, hk⟩
  refine ⟨w, hw, rest, hrest.symm, s.atStart && w.length = 0, ?_⟩
  dsimp only at hk
  have hafter : (s.advance w.length).rest = rest := by
    rw [Place.rest_advance, ← hrest, List.drop_left]
  rw [hafter, ← hrest, List.length_append, Nat.add_sub_cancel, List.take_left] at hk
  exact hk

theorem isSome_run_group {s : Place} {k : Place → Option β} {w rest : List Char}
    (hw : w ∈ r.language) (hrest : s.rest = w ++ rest)
    (hk : ∀ atStart, (k ⟨atStart, rest, (name, String.ofList w) :: s.groups⟩).isSome = true) :
    ((group name r).run s k).isSome = true := by
  apply isSome_run hr hw ⟨rest, hrest.symm⟩
  have hafter : (s.advance w.length).rest = rest := by
    rw [Place.rest_advance, hrest, List.drop_left]
  dsimp only
  rw [hafter, hrest, List.length_append, Nat.add_sub_cancel, List.take_left]
  exact hk _

end

/-- The text of an optional piece that begins with `c`. -/
def sectionText (c : Char) (o : Option (List Char)) : List Char := o.elim [] fun w => c :: w

/-- What an optional piece notes. -/
def sectionGroups (name : String) (o : Option (List Char)) : List (String × String) :=
  o.toList.map fun w => (name, String.ofList w)

section
variable {name : String} {r : Regex} (hr : r.Plain) {c : Char}
include hr

theorem exists_of_run_section {s : Place} {k : Place → Option β}
    (h : (opt (seq (char c) (group name r))).run s k = some b) :
    ∃ o : Option (List Char), (∀ w ∈ o, w ∈ r.language) ∧
      ∃ rest, s.rest = sectionText c o ++ rest ∧
        ∃ atStart, k ⟨atStart, rest, sectionGroups name o ++ s.groups⟩ = some b := by
  rw [run_opt, Option.orElse_eq_some] at h
  rcases h with h | ⟨-, h⟩
  · rw [run_seq] at h
    rcases exists_of_run_char h with ⟨rest, hrest, atStart, h⟩
    rcases exists_of_run_group hr h with ⟨w, hw, rest', hrest', atStart', h⟩
    dsimp only at hrest' h
    refine ⟨some w, fun w' hw' => Option.mem_some_iff.mp hw' ▸ hw, rest', ?_, atStart', h⟩
    rw [hrest, hrest']
    rfl
  · exact ⟨none, fun _ h => (nomatch h), s.rest, rfl, s.atStart, h⟩

theorem isSome_run_section {s : Place} {k : Place → Option β} {o : Option (List Char)}
    {rest : List Char} (ho : ∀ w ∈ o, w ∈ r.language) (hrest : s.rest = sectionText c o ++ rest)
    (hk : ∀ atStart, (k ⟨atStart, rest, sectionGroups name o ++ s.groups⟩).isSome = true) :
    ((opt (seq (char c) (group name r))).run s k).isSome = true := by
  rw [run_opt, isSome_orElse_iff]
  cases o with
  | none =>
    refine Or.inr ?_
    have hplace : s = ⟨s.atStart, rest, s.groups⟩ := by rw [← show s.rest = rest from hrest]
    rw [hplace]
    exact hk _
  | some w =>
    rw [run_seq]
    refine Or.inl (isSome_run_char hrest fun atStart => ?_)
    exact isSome_run_group hr (ho w rfl) rfl hk

end

end

/-! ## Pieces that can be told apart -/

theorem append_inj_of_class {p : Char → Bool} {u v u' v' : List Char}
    (hu : ∀ c ∈ u, p c = true) (hu' : ∀ c ∈ u', p c = true)
    (hv : ∀ c ∈ v.head?, p c = false) (hv' : ∀ c ∈ v'.head?, p c = false)
    (h : u ++ v = u' ++ v') : u = u' ∧ v = v' := by
  have htake : ∀ u v : List Char, (∀ c ∈ u, p c = true) → (∀ c ∈ v.head?, p c = false) →
      (u ++ v).takeWhile p = u := by
    intro u v hu hv
    rw [List.takeWhile_append_of_pos hu]
    cases v with
    | nil => rw [List.takeWhile_nil, List.append_nil]
    | cons c v =>
      rw [List.takeWhile_cons_of_neg (by simp [hv c rfl]), List.append_nil]
  have hpiece : u = u' := by
    rw [← htake u v hu hv, h, htake u' v' hu' hv']
  exact ⟨hpiece, List.append_cancel_left (hpiece ▸ h)⟩

theorem sectionText_append_inj {p : Char → Bool} {c : Char} {o o' : Option (List Char)}
    {v v' : List Char} (ho : ∀ w ∈ o, ∀ d ∈ w, p d = true) (ho' : ∀ w ∈ o', ∀ d ∈ w, p d = true)
    (hv : ∀ d ∈ v.head?, p d = false ∧ d ≠ c) (hv' : ∀ d ∈ v'.head?, p d = false ∧ d ≠ c)
    (h : sectionText c o ++ v = sectionText c o' ++ v') : o = o' ∧ v = v' := by
  cases o with
  | none =>
    cases o' with
    | none => exact ⟨rfl, h⟩
    | some w' =>
      rw [show v = c :: (w' ++ v') from h] at hv
      exact absurd rfl (hv c rfl).2
  | some w =>
    cases o' with
    | none =>
      rw [← show c :: (w ++ v) = v' from h] at hv'
      exact absurd rfl (hv' c rfl).2
    | some w' =>
      have htail : w ++ v = w' ++ v' := List.tail_eq_of_cons_eq h
      rcases append_inj_of_class (ho w rfl) (ho' w' rfl) (fun d hd => (hv d hd).1)
        (fun d hd => (hv' d hd).1) htail with ⟨rfl, hrest⟩
      exact ⟨rfl, hrest⟩

/-! ## A pattern for the whole text -/

/-- An anchored pattern accepts its language, and a line feed behind it. -/
theorem accepts_anchored_iff {r : Regex} (hr : r.Plain) {s : String} :
    (seq start (seq r finish)).accepts s = true ↔
      ∃ w ∈ r.language, s.toList = w ∨ s.toList = w ++ ['\n'] := by
  have hfinish : ∀ s : Place, (finish.run s some).isSome = true ↔
      s.rest = [] ∨ s.rest = ['\n'] := by
    intro s
    unfold run
    split_ifs with h
    · simp [h]
    · simp [h]
  have hrun : (seq start (seq r finish)).accepts s
      = (r.run { atStart := true, rest := s.toList, groups := [] }
        fun s' => finish.run s' some).isSome := rfl
  rw [hrun]
  constructor
  · intro h
    rcases Option.isSome_iff_exists.mp h with ⟨place, hplace⟩
    rcases exists_of_run hr hplace with ⟨w, hw, ⟨rest, hrest⟩, hk⟩
    have hend := (hfinish _).mp (Option.isSome_of_eq_some hk)
    rw [Place.rest_advance] at hend
    dsimp only at hend hrest
    rw [← hrest, List.drop_left] at hend
    refine ⟨w, hw, ?_⟩
    rw [← hrest]
    rcases hend with rfl | rfl
    · exact Or.inl (List.append_nil w)
    · exact Or.inr rfl
  · rintro ⟨w, hw, h⟩
    have hprefix : ∃ rest, (rest = [] ∨ rest = ['\n']) ∧ w ++ rest = s.toList := by
      rcases h with h | h
      · exact ⟨[], Or.inl rfl, by rw [h, List.append_nil]⟩
      · exact ⟨['\n'], Or.inr rfl, h.symm⟩
    rcases hprefix with ⟨rest, hrest, htext⟩
    apply isSome_run hr hw ⟨rest, htext⟩
    rw [hfinish, Place.rest_advance]
    dsimp only
    rw [← htext, List.drop_left]
    exact hrest

end Regex

end OmnibaseCore
