import OmnibaseCore.Json.Value

/-!
# Texts that determine their values

The compact text of a value, followed by a delimiter or by nothing, can be told from what follows
it, and determines the value up to the order of the entries of its dictionaries.
-/

namespace OmnibaseCore

/-! ## Strings -/

/-- The character that a short escape stands for. -/
def unescape (e : Char) : Char :=
  if e = 'b' then Char.ofNat 0x08
  else if e = 't' then Char.ofNat 0x09
  else if e = 'n' then Char.ofNat 0x0a
  else if e = 'f' then Char.ofNat 0x0c
  else if e = 'r' then Char.ofNat 0x0d
  else e

variable {c : Char}

theorem char_eq_of_toNat {n : ℕ} (h : c.toNat = n) : c = Char.ofNat n := by
  rw [← h, Char.ofNat_toNat]

theorem jsonEscape_cases (c : Char) :
    (∃ e, jsonEscape c = ['\\', e] ∧ e ≠ 'u' ∧ unescape e = c) ∨
      (jsonEscape c = [c] ∧ c ≠ '\\' ∧ c ≠ '"') ∨
      (c.toNat < 0x10000 ∧ jsonEscape c = '\\' :: 'u' :: hexDigits 4 c.toNat) ∨
      (0x10000 ≤ c.toNat ∧ jsonEscape c =
        '\\' :: 'u' :: (hexDigits 4 (0xd800 + (c.toNat - 0x10000) / 0x400) ++
          '\\' :: 'u' :: hexDigits 4 (0xdc00 + (c.toNat - 0x10000) % 0x400))) := by
  have hplain : ¬ (c.toNat = 0x22 ∨ c.toNat = 0x5c) → c ≠ '\\' ∧ c ≠ '"' := by
    intro hquote
    constructor <;> (intro h; rw [h] at hquote; exact hquote (by decide))
  unfold jsonEscape
  simp only
  split_ifs with hquote hb ht hn hf hr hascii hlow
  · refine Or.inl ⟨c, rfl, ?_, ?_⟩
    · intro hu
      rw [hu] at hquote
      exact absurd hquote (by decide)
    · rcases hquote with h | h <;> rw [char_eq_of_toNat h] <;> decide
  · exact Or.inl ⟨'b', rfl, by decide, by rw [char_eq_of_toNat hb]; decide⟩
  · exact Or.inl ⟨'t', rfl, by decide, by rw [char_eq_of_toNat ht]; decide⟩
  · exact Or.inl ⟨'n', rfl, by decide, by rw [char_eq_of_toNat hn]; decide⟩
  · exact Or.inl ⟨'f', rfl, by decide, by rw [char_eq_of_toNat hf]; decide⟩
  · exact Or.inl ⟨'r', rfl, by decide, by rw [char_eq_of_toNat hr]; decide⟩
  · exact Or.inr (Or.inl ⟨rfl, hplain hquote⟩)
  · exact Or.inr (Or.inr (Or.inl ⟨hlow, rfl⟩))
  · exact Or.inr (Or.inr (Or.inr ⟨not_lt.mp hlow, rfl⟩))

theorem toNat_not_surrogate (c : Char) : c.toNat < 0xd800 ∨ 0xdfff < c.toNat ∧ c.toNat < 0x110000 :=
  c.valid

variable {r r' : List Char}

theorem hexDigits_append_inj {k n m : ℕ} (hn : n < 16 ^ k) (hm : m < 16 ^ k)
    (h : hexDigits k n ++ r = hexDigits k m ++ r') : n = m ∧ r = r' := by
  obtain ⟨hdigits, hr⟩ := List.append_inj h (by simp)
  exact ⟨hexDigits_inj hn hm hdigits, hr⟩

/-- Where the escape of a character ends can be told, whatever follows. -/
theorem jsonEscape_append_inj {c c' : Char} (h : jsonEscape c ++ r = jsonEscape c' ++ r') :
    c = c' ∧ r = r' := by
  have hrange := toNat_not_surrogate c
  have hrange' := toNat_not_surrogate c'
  rcases jsonEscape_cases c with ⟨e, hc, he, hec⟩ | ⟨hc, hslash, -⟩ | ⟨hlow, hc⟩ | ⟨hhigh, hc⟩ <;>
    rcases jsonEscape_cases c' with ⟨e', hc', he', hec'⟩ | ⟨hc', hslash', -⟩ | ⟨hlow', hc'⟩ |
      ⟨hhigh', hc'⟩ <;> rw [hc, hc'] at h
  · simp only [List.cons_append, List.nil_append, List.cons.injEq, true_and] at h
    exact ⟨by rw [← hec, ← hec', h.1], h.2⟩
  · simp only [List.cons_append, List.nil_append, List.cons.injEq] at h
    exact absurd h.1.symm hslash'
  · simp only [List.cons_append, List.nil_append, List.cons.injEq, true_and] at h
    exact absurd h.1 he
  · simp only [List.cons_append, List.nil_append, List.cons.injEq, true_and] at h
    exact absurd h.1 he
  · simp only [List.cons_append, List.nil_append, List.cons.injEq] at h
    exact absurd h.1 hslash
  · simpa using h
  · simp only [List.cons_append, List.nil_append, List.cons.injEq] at h
    exact absurd h.1 hslash
  · simp only [List.cons_append, List.nil_append, List.cons.injEq] at h
    exact absurd h.1 hslash
  · simp only [List.cons_append, List.nil_append, List.cons.injEq, true_and] at h
    exact absurd h.1.symm he'
  · simp only [List.cons_append, List.nil_append, List.cons.injEq] at h
    exact absurd h.1.symm hslash'
  · simp only [List.cons_append, List.cons.injEq, true_and] at h
    obtain ⟨hn, hr⟩ := hexDigits_append_inj (by omega) (by omega) h
    exact ⟨by rw [char_eq_of_toNat hn, Char.ofNat_toNat], hr⟩
  · simp only [List.cons_append, List.append_assoc, List.cons.injEq, true_and] at h
    obtain ⟨hn, -⟩ := hexDigits_append_inj (by omega) (by omega) h
    omega
  · simp only [List.cons_append, List.nil_append, List.cons.injEq, true_and] at h
    exact absurd h.1.symm he'
  · simp only [List.cons_append, List.nil_append, List.cons.injEq] at h
    exact absurd h.1.symm hslash'
  · simp only [List.cons_append, List.append_assoc, List.cons.injEq, true_and] at h
    obtain ⟨hn, -⟩ := hexDigits_append_inj (by omega) (by omega) h
    omega
  · simp only [List.cons_append, List.append_assoc, List.cons.injEq, true_and] at h
    obtain ⟨hn, h⟩ := hexDigits_append_inj (by omega) (by omega) h
    simp only [List.cons.injEq, true_and] at h
    obtain ⟨hm, hr⟩ := hexDigits_append_inj (by omega) (by omega) h
    have hnat : c.toNat = c'.toNat := by omega
    exact ⟨by rw [char_eq_of_toNat hnat, Char.ofNat_toNat], hr⟩

theorem quote_ne_jsonEscape : '"' :: r ≠ jsonEscape c ++ r' := by
  rcases jsonEscape_cases c with ⟨e, hc, -⟩ | ⟨hc, -, hquote⟩ | ⟨-, hc⟩ | ⟨-, hc⟩ <;> rw [hc]
  · simp
  · intro h
    exact hquote (List.cons.inj h).1.symm
  · simp
  · simp

theorem escapes_append_inj {l l' r r' : List Char}
    (h : l.flatMap jsonEscape ++ '"' :: r = l'.flatMap jsonEscape ++ '"' :: r') :
    l = l' ∧ r = r' := by
  induction l generalizing l' with
  | nil =>
    cases l' with
    | nil => simpa using h
    | cons c' l' =>
      rw [List.flatMap_nil, List.nil_append, List.flatMap_cons, List.append_assoc] at h
      exact absurd h quote_ne_jsonEscape
  | cons c l ih =>
    rw [List.flatMap_cons, List.append_assoc] at h
    cases l' with
    | nil => exact absurd h.symm quote_ne_jsonEscape
    | cons c' l' =>
      rw [List.flatMap_cons, List.append_assoc] at h
      obtain ⟨hc, hrest⟩ := jsonEscape_append_inj h
      obtain ⟨hl, hr⟩ := ih hrest
      exact ⟨by rw [hc, hl], hr⟩

theorem toList_jsonString (s : String) :
    (jsonString s).toList = '"' :: (s.toList.flatMap jsonEscape ++ ['"']) := by
  simp [jsonString]

/-- A string ends at its closing quote. -/
theorem jsonString_append_inj {s s' : String}
    (h : (jsonString s).toList ++ r = (jsonString s').toList ++ r') : s = s' ∧ r = r' := by
  rw [toList_jsonString, toList_jsonString, List.cons_append, List.cons_append, List.append_assoc,
    List.append_assoc] at h
  obtain ⟨hl, hr⟩ := escapes_append_inj (List.cons.inj h).2
  exact ⟨String.toList_injective hl, hr⟩

/-! ## Sequences -/

/-- What may follow the text of a value. -/
def Delimited (r : List Char) : Prop := ∀ c ∈ r.head?, c = ',' ∨ c = ']' ∨ c = '\x7d'

theorem delimited_nil : Delimited [] := nofun

theorem delimited_cons {r : List Char} (h : c = ',' ∨ c = ']' ∨ c = '\x7d') :
    Delimited (c :: r) := by
  intro d hd
  rw [List.head?_cons, Option.mem_some_iff] at hd
  rw [← hd]
  exact h

/-- The text of `b`, followed by a delimiter or by nothing, determines what `canon` makes of it. -/
def Decodes {β γ : Type} (code : β → Except PyException String) (canon : β → γ) (b : β) : Prop :=
  ∀ b' t t' r r', code b = .ok t → code b' = .ok t' → Delimited r → Delimited r' →
    t.toList ++ r = t'.toList ++ r' → canon b = canon b' ∧ r = r'

/-- A text does not begin with a delimiter. -/
def Solid (t : String) : Prop := ∃ c rest, t.toList = c :: rest ∧ c ≠ ',' ∧ c ≠ ']' ∧ c ≠ '\x7d'

section
variable {β γ : Type} {code : β → Except PyException String} {canon : β → γ} {closing : Char}
  (hclosing : closing = ']' ∨ closing = '\x7d')
include hclosing

/-- Texts after the first one, with what follows them. -/
def tailText (closing : Char) (texts : List String) (r : List Char) : List Char :=
  texts.flatMap (fun t => ',' :: t.toList) ++ closing :: r

omit hclosing in
theorem tailText_cons (t : String) (texts : List String) (r : List Char) :
    tailText closing (t :: texts) r = ',' :: (t.toList ++ tailText closing texts r) := by
  simp [tailText]

theorem delimited_tailText (texts : List String) (r : List Char) :
    Delimited (tailText closing texts r) := by
  cases texts with
  | nil => exact delimited_cons (Or.inr hclosing)
  | cons t texts =>
    rw [tailText_cons]
    exact delimited_cons (Or.inl rfl)

omit hclosing in
theorem mapM_cons_eq_ok {b : β} {l : List β} {texts : List String}
    (h : (b :: l).mapM code = .ok texts) :
    ∃ t ts, code b = .ok t ∧ l.mapM code = .ok ts ∧ texts = t :: ts := by
  rw [List.mapM_cons] at h
  obtain ⟨t, ht, h⟩ := bind_eq_ok h
  obtain ⟨ts, hts, h⟩ := bind_eq_ok h
  exact ⟨t, ts, ht, hts, (Except.ok.inj h).symm⟩

theorem tailText_inj {l l' : List β} {texts texts' : List String} {r r' : List Char}
    (hl : ∀ b ∈ l, Decodes code canon b) (htexts : l.mapM code = .ok texts)
    (htexts' : l'.mapM code = .ok texts')
    (h : tailText closing texts r = tailText closing texts' r') :
    l.map canon = l'.map canon ∧ r = r' := by
  have hcomma : closing ≠ ',' := by
    rcases hclosing with h | h <;> rw [h] <;> decide
  induction l generalizing l' texts texts' with
  | nil =>
    cases htexts
    cases l' with
    | nil =>
      cases htexts'
      exact ⟨rfl, (List.cons.inj h).2⟩
    | cons b' l' =>
      obtain ⟨t', ts', -, -, htexts'⟩ := mapM_cons_eq_ok htexts'
      subst htexts'
      rw [tailText_cons] at h
      exact absurd (List.cons.inj h).1 hcomma
  | cons b l ih =>
    rw [List.forall_mem_cons] at hl
    obtain ⟨t, ts, ht, hts, htexts⟩ := mapM_cons_eq_ok htexts
    subst htexts
    rw [tailText_cons] at h
    cases l' with
    | nil =>
      cases htexts'
      exact absurd (List.cons.inj h).1.symm hcomma
    | cons b' l' =>
      obtain ⟨t', ts', ht', hts', htexts'⟩ := mapM_cons_eq_ok htexts'
      subst htexts'
      rw [tailText_cons] at h
      obtain ⟨hb, hrest⟩ := hl.1 b' t t' _ _ ht ht' (delimited_tailText hclosing ts r)
        (delimited_tailText hclosing ts' r') (List.cons.inj h).2
      obtain ⟨hmap, hr⟩ := ih hl.2 hts hts' hrest
      exact ⟨by rw [List.map_cons, List.map_cons, hb, hmap], hr⟩

omit hclosing in
theorem toList_bracket (opening : Char) (depth : ℕ) (texts : List String) (r : List Char) :
    (JsonStyle.compact.bracket (String.singleton opening) (String.singleton closing) depth
        texts).toList ++ r
      = opening :: match texts with
        | [] => closing :: r
        | t :: ts => t.toList ++ tailText closing ts r := by
  unfold JsonStyle.bracket
  cases texts with
  | nil => simp
  | cons t ts =>
    have hjoin : ∀ (ts : List String) (t : String),
        (",".toList).intercalate ((t :: ts).map String.toList)
          = t.toList ++ ts.flatMap fun u => ',' :: u.toList := by
      intro ts
      induction ts with
      | nil => simp
      | cons u us ih =>
        intro t
        rw [List.map_cons, List.map_cons, List.intercalate_cons_cons, ← List.map_cons, ih u]
        simp
    simp only [List.isEmpty_cons, Bool.false_eq_true, if_false, JsonStyle.compact, String.append_empty,
      String.toList_append, String.toList_intercalate, hjoin, tailText]
    simp

theorem bracket_inj {l l' : List β} {texts texts' : List String} {r r' : List Char}
    {opening : Char} {depth depth' : ℕ} (hl : ∀ b ∈ l, Decodes code canon b)
    (hsolid : ∀ b t, code b = .ok t → Solid t) (htexts : l.mapM code = .ok texts)
    (htexts' : l'.mapM code = .ok texts')
    (h : (JsonStyle.compact.bracket (String.singleton opening) (String.singleton closing) depth
        texts).toList ++ r
      = (JsonStyle.compact.bracket (String.singleton opening) (String.singleton closing) depth'
        texts').toList ++ r') :
    l.map canon = l'.map canon ∧ r = r' := by
  have hopen : ∀ {b : β} {t : String} {s s' : List Char}, code b = .ok t →
      closing :: s ≠ t.toList ++ s' := by
    intro b t s s' ht heq
    obtain ⟨c, rest, hc, -, hbracket, hbrace⟩ := hsolid b t ht
    rw [hc, List.cons_append] at heq
    obtain ⟨hcc, -⟩ := List.cons.inj heq
    rcases hclosing with hclose | hclose
    · exact hbracket (by rw [← hcc, hclose])
    · exact hbrace (by rw [← hcc, hclose])
  rw [toList_bracket, toList_bracket] at h
  obtain ⟨-, h⟩ := List.cons.inj h
  cases l with
  | nil =>
    cases htexts
    cases l' with
    | nil =>
      cases htexts'
      exact ⟨rfl, (List.cons.inj h).2⟩
    | cons b' l' =>
      obtain ⟨t', ts', ht', -, htexts'⟩ := mapM_cons_eq_ok htexts'
      subst htexts'
      exact absurd h (hopen ht')
  | cons b l =>
    rw [List.forall_mem_cons] at hl
    obtain ⟨t, ts, ht, hts, htexts⟩ := mapM_cons_eq_ok htexts
    subst htexts
    cases l' with
    | nil =>
      cases htexts'
      exact absurd h.symm (hopen ht)
    | cons b' l' =>
      obtain ⟨t', ts', ht', hts', htexts'⟩ := mapM_cons_eq_ok htexts'
      subst htexts'
      obtain ⟨hb, hrest⟩ := hl.1 b' t t' _ _ ht ht' (delimited_tailText hclosing ts r)
        (delimited_tailText hclosing ts' r') h
      obtain ⟨hmap, hr⟩ := tailText_inj hclosing hl.2 hts hts' hrest
      exact ⟨by rw [List.map_cons, List.map_cons, hb, hmap], hr⟩

end

/-! ## Trees -/

/-- Leaves are determined by their texts, and their texts tell them from other values. -/
structure LeafCode {α : Type} (leaf : α → Except PyException String) : Prop where
  decodes : ∀ a, Decodes leaf id a
  opens : ∀ a t, leaf a = .ok t → ∃ c rest, t.toList = c :: rest ∧
    c ∉ [',', ']', '\x7d', 'n', '[', '\x7b']

namespace Json

variable {α : Type} {leaf : α → Except PyException String}

/-- The first character of the text of a value that is no leaf. -/
def opener : Json α → Option Char
  | .null => some 'n'
  | .prim _ => none
  | .list _ => some '['
  | .dict _ => some '\x7b'

variable {depth : ℕ} {t : String}

theorem opener_dumpsAt (hleaf : LeafCode leaf) {j : Json α}
    (h : dumpsAt leaf .compact j depth = .ok t) :
    ∃ c rest, t.toList = c :: rest ∧ c ∉ [',', ']', '\x7d'] ∧
      j.opener = if c ∈ ['n', '[', '\x7b'] then some c else none := by
  cases j with
  | null =>
    cases h
    exact ⟨'n', _, rfl, by decide, rfl⟩
  | prim a =>
    obtain ⟨c, rest, hc, hne⟩ := hleaf.opens a t h
    refine ⟨c, rest, hc, ?_, ?_⟩
    · simp only [List.mem_cons, List.not_mem_nil, or_false] at hne ⊢
      tauto
    · rw [if_neg]
      · rfl
      · simp only [List.mem_cons, List.not_mem_nil, or_false] at hne ⊢
        tauto
  | list items =>
    rw [dumpsAt_list] at h
    obtain ⟨texts, -, h⟩ := bind_eq_ok h
    have htext := @toList_bracket ']' '[' depth texts []
    rw [List.append_nil] at htext
    cases h
    exact ⟨'[', _, htext, by decide, rfl⟩
  | dict entries =>
    rw [dumpsAt_dict] at h
    obtain ⟨texts, -, h⟩ := bind_eq_ok h
    have htext := @toList_bracket '\x7d' '\x7b' depth texts []
    rw [List.append_nil] at htext
    cases h
    exact ⟨'\x7b', _, htext, by decide, rfl⟩

variable {j j' : Json α}

theorem opener_eq (hleaf : LeafCode leaf) {t t' : String} {r r' : List Char}
    (h : dumpsAt leaf .compact j depth = .ok t) (h' : dumpsAt leaf .compact j' depth = .ok t')
    (heq : t.toList ++ r = t'.toList ++ r') : j.opener = j'.opener := by
  obtain ⟨c, rest, hc, -, hopener⟩ := opener_dumpsAt hleaf h
  obtain ⟨c', rest', hc', -, hopener'⟩ := opener_dumpsAt hleaf h'
  rw [hc, hc'] at heq
  rw [hopener, hopener', (List.cons.inj heq).1]

theorem solid_dumpsAt (hleaf : LeafCode leaf) {j : Json α}
    (h : dumpsAt leaf .compact j depth = .ok t) : Solid t := by
  obtain ⟨c, rest, hc, hne, -⟩ := opener_dumpsAt hleaf h
  simp only [List.mem_cons, List.not_mem_nil, or_false, not_or] at hne
  exact ⟨c, rest, hc, hne⟩

theorem solid_entryText {e : String × Json α} (h : entryText leaf .compact depth e = .ok t) :
    Solid t := by
  obtain ⟨value, -, h⟩ := bind_eq_ok h
  cases h
  have htext : (jsonString e.1 ++ JsonStyle.compact.keySeparator ++ value).toList
      = '"' :: (e.1.toList.flatMap jsonEscape ++ ['"'] ++ JsonStyle.compact.keySeparator.toList ++
        value.toList) := by
    rw [String.toList_append, String.toList_append, toList_jsonString]
    rfl
  exact ⟨'"', _, htext, by decide, by decide, by decide⟩

theorem decodes_entryText {e : String × Json α}
    (h : Decodes (fun j => dumpsAt leaf .compact j depth) sortKeys e.2) :
    Decodes (entryText leaf .compact depth) (fun e => (e.1, sortKeys e.2)) e := by
  intro e' t t' r r' ht ht' hr hr' heq
  obtain ⟨value, hvalue, ht⟩ := bind_eq_ok ht
  obtain ⟨value', hvalue', ht'⟩ := bind_eq_ok ht'
  cases ht
  cases ht'
  simp only [String.toList_append, List.append_assoc] at heq
  obtain ⟨hkey, heq⟩ := jsonString_append_inj heq
  obtain ⟨hcanon, hrest⟩ := h e'.2 value value' r r' hvalue hvalue' hr hr'
    (List.append_cancel_left heq)
  exact ⟨Prod.ext hkey hcanon, hrest⟩

/-- A text of JSON determines its value, up to the order of keys. -/
theorem decodes_dumpsAt (hleaf : LeafCode leaf) (j : Json α) (depth : ℕ) :
    Decodes (fun j => dumpsAt leaf .compact j depth) sortKeys j := by
  induction j generalizing depth with
  | null =>
    intro j' t t' r r' ht ht' hr hr' heq
    have hopener := opener_eq hleaf ht ht' heq
    cases j' with
    | null =>
      cases ht
      cases ht'
      exact ⟨rfl, List.append_cancel_left heq⟩
    | _ => exact absurd hopener (by simp [opener])
  | prim a =>
    intro j' t t' r r' ht ht' hr hr' heq
    have hopener := opener_eq hleaf ht ht' heq
    cases j' with
    | prim a' =>
      obtain ⟨ha, hrest⟩ := hleaf.decodes a a' t t' r r' ht ht' hr hr' heq
      exact ⟨congrArg prim ha, hrest⟩
    | _ => exact absurd hopener (by simp [opener])
  | list items ih =>
    intro j' t t' r r' ht ht' hr hr' heq
    have hopener := opener_eq hleaf ht ht' heq
    cases j' with
    | list items' =>
      simp only [dumpsAt_list] at ht ht'
      obtain ⟨texts, htexts, ht⟩ := bind_eq_ok ht
      obtain ⟨texts', htexts', ht'⟩ := bind_eq_ok ht'
      cases ht
      cases ht'
      obtain ⟨hmap, hrest⟩ := @bracket_inj _ _ (fun j => dumpsAt leaf .compact j (depth + 1))
        sortKeys ']' (Or.inl rfl) _ _ texts texts' r r' '[' depth depth
        (fun i hi => ih i hi (depth + 1)) (fun _ _ => solid_dumpsAt hleaf) htexts htexts' heq
      exact ⟨by rw [sortKeys_list, sortKeys_list, hmap], hrest⟩
    | _ => exact absurd hopener (by simp [opener])
  | dict entries ih =>
    intro j' t t' r r' ht ht' hr hr' heq
    have hopener := opener_eq hleaf ht ht' heq
    cases j' with
    | dict entries' =>
      simp only [dumpsAt_dict] at ht ht'
      obtain ⟨texts, htexts, ht⟩ := bind_eq_ok ht
      obtain ⟨texts', htexts', ht'⟩ := bind_eq_ok ht'
      cases ht
      cases ht'
      have hentries : ∀ e ∈ sortedAsc Prod.fst entries,
          Decodes (entryText leaf .compact (depth + 1)) (fun e => (e.1, sortKeys e.2)) e := by
        intro e he
        exact decodes_entryText
          (ih e ((perm_sortedAsc Prod.fst entries).mem_iff.mp he) (depth + 1))
      obtain ⟨hmap, hrest⟩ := @bracket_inj _ _ (entryText leaf .compact (depth + 1))
        (fun e => (e.1, sortKeys e.2)) '\x7d' (Or.inr rfl) _ _ texts texts' r r' '\x7b' depth depth
        hentries (fun _ _ => solid_entryText) htexts htexts' heq
      exact ⟨by rw [sortKeys_dict, sortKeys_dict, hmap], hrest⟩
    | _ => exact absurd hopener (by simp [opener])

/-- Values with the same compact text are the same up to the order of their entries. -/
theorem dumps_inj (hleaf : LeafCode leaf) (h : dumps leaf .compact j = .ok t)
    (h' : dumps leaf .compact j' = .ok t) : sortKeys j = sortKeys j' :=
  (decodes_dumpsAt hleaf j 0 j' t t [] [] h h' delimited_nil delimited_nil rfl).1

/-- Texts are the same if and only if the values are, up to the order of their entries. -/
theorem dumps_eq_iff (hleaf : LeafCode leaf) {t t' : String} (h : dumps leaf .compact j = .ok t)
    (h' : dumps leaf .compact j' = .ok t') : t = t' ↔ sortKeys j = sortKeys j' := by
  constructor
  · intro ht
    rw [← ht] at h'
    exact dumps_inj hleaf h h'
  · intro hj
    exact Except.ok.inj (h.symm.trans ((dumps_congr leaf .compact hj).trans h'))

theorem sortKeys_value_eq {entries entries' : List (String × Json α)}
    (h : sortKeys (.dict entries) = sortKeys (.dict entries'))
    (hkeys : (entries'.map Prod.fst).Nodup) {key : String} {value value' : Json α}
    (hvalue : (key, value) ∈ entries) (hvalue' : (key, value') ∈ entries') :
    sortKeys value = sortKeys value' := by
  rw [sortKeys_dict, sortKeys_dict, dict.injEq] at h
  have hmem : (key, sortKeys value)
      ∈ (sortedAsc Prod.fst entries').map fun e => (e.1, sortKeys e.2) := by
    rw [← h]
    exact List.mem_map.mpr ⟨_, (perm_sortedAsc Prod.fst entries).mem_iff.mpr hvalue, rfl⟩
  obtain ⟨e, he, heq⟩ := List.mem_map.mp hmem
  obtain ⟨hkey, hsorted⟩ := Prod.mk.inj heq
  have hentry : e = (key, value') :=
    List.inj_on_of_nodup_map hkeys ((perm_sortedAsc Prod.fst entries').mem_iff.mp he) hvalue' hkey
  rw [← hsorted, hentry]

end Json

/-! ## Leaves -/

/-- A character of a number. -/
def IsNumeric (c : Char) : Prop := c.isDigit = true ∨ c ∈ ['+', '-', '.', 'e']

instance (c : Char) : Decidable (IsNumeric c) :=
  inferInstanceAs (Decidable (_ ∨ _))

theorem not_mem_of_isNumeric (hc : IsNumeric c) :
    c ∉ [',', ']', '\x7d', '[', '\x7b', '"', 'n'] := by
  intro hmem
  simp only [List.mem_cons, List.not_mem_nil, or_false] at hmem
  rcases hmem with rfl | rfl | rfl | rfl | rfl | rfl | rfl <;> exact absurd hc (by decide)

/-- What is documented of `repr` of a finite `float`: it can be read back, and looks like no
`int`. -/
structure FloatDigits (floatRepr : ℚ → String) : Prop where
  injective : Function.Injective floatRepr
  numeric : ∀ q, ∀ c ∈ (floatRepr q).toList, IsNumeric c
  marked : ∀ q, ∃ c ∈ (floatRepr q).toList, c = '.' ∨ c = 'e'

theorem natRepr_inj {m n : ℕ} (h : m.repr = n.repr) : m = n := by
  have hdigits : Nat.toDigits 10 m = Nat.toDigits 10 n := by
    rw [← Nat.toList_repr, ← Nat.toList_repr, h]
  rw [← @Nat.ofDigitChars_ten_toDigits m, ← @Nat.ofDigitChars_ten_toDigits n, hdigits]

theorem isDigit_of_mem_natRepr {n : ℕ} (hc : c ∈ n.repr.toList) : c.isDigit = true := by
  rw [Nat.toList_repr] at hc
  exact Nat.isDigit_of_mem_toDigits (by decide) (by decide) hc

theorem floatDigits_encode : FloatDigits fun q => "." ++ (Encodable.encode q).repr where
  injective q q' h := by
    have hrepr : (Encodable.encode q).repr = (Encodable.encode q').repr :=
      (String.append_right_inj ".").mp h
    exact Encodable.encode_injective (natRepr_inj hrepr)
  numeric q c hc := by
    rw [String.toList_append, List.mem_append] at hc
    rcases hc with hc | hc
    · have hdot : c = '.' := by simpa using hc
      exact Or.inr (by simp [hdot])
    · exact Or.inl (isDigit_of_mem_natRepr hc)
  marked q := ⟨'.', by simp, Or.inl rfl⟩

theorem natRepr_ne_neg {m n : ℕ} : m.repr ≠ "-" ++ n.repr := by
  intro h
  have hmem : '-' ∈ m.repr.toList := by
    rw [h]
    simp
  exact absurd (isDigit_of_mem_natRepr hmem) (by decide)

theorem intText_inj {m n : ℤ} (h : toString m = toString n) : m = n := by
  rw [Int.toString_eq_repr, Int.toString_eq_repr, Int.repr_eq_if, Int.repr_eq_if] at h
  by_cases hm : 0 ≤ m <;> by_cases hn : 0 ≤ n
  · rw [if_pos hm, if_pos hn] at h
    have hnat := natRepr_inj h
    omega
  · rw [if_pos hm, if_neg hn] at h
    exact absurd h natRepr_ne_neg
  · rw [if_neg hm, if_pos hn] at h
    exact absurd h.symm natRepr_ne_neg
  · rw [if_neg hm, if_neg hn, String.append_right_inj] at h
    have hnat := natRepr_inj h
    omega

theorem digit_of_mem_intText {n : ℤ} (hc : c ∈ (toString n).toList) :
    c.isDigit = true ∨ c = '-' := by
  rw [Int.toString_eq_repr, Int.repr_eq_if] at hc
  by_cases hn : 0 ≤ n
  · rw [if_pos hn] at hc
    exact Or.inl (isDigit_of_mem_natRepr hc)
  · rw [if_neg hn, String.toList_append, List.mem_append] at hc
    rcases hc with hc | hc
    · exact Or.inr (by simpa using hc)
    · exact Or.inl (isDigit_of_mem_natRepr hc)

theorem isNumeric_of_mem_intText {n : ℤ} (hc : c ∈ (toString n).toList) : IsNumeric c := by
  rcases digit_of_mem_intText hc with hd | hd
  · exact Or.inl hd
  · exact Or.inr (by simp [hd])

theorem intText_ne_empty (n : ℤ) : (toString n).toList ≠ [] := by
  rw [Int.toString_eq_repr, Int.repr_eq_if]
  by_cases hn : 0 ≤ n
  · rw [if_pos hn, Nat.toList_repr]
    exact Nat.toDigits_ne_nil
  · rw [if_neg hn]
    simp

/-- The texts of leaves that are no strings and no finite numbers, with their leaves. -/
def literals : List (String × StrictJsonPrimitive) :=
  [("true", .bool true), ("false", .bool false), ("NaN", .float .nan), ("Infinity", .float .inf),
    ("-Infinity", .float .negInf)]

variable {a : StrictJsonPrimitive}

theorem strictText_cases {floatRepr : ℚ → String} {t : String} (h : a.text floatRepr = .ok t) :
    (∃ s, a = .str s ∧ t = jsonString s) ∨ (t, a) ∈ literals ∨
      (∃ n, a = .int n ∧ t = toString n) ∨ ∃ q, a = .float (.finite q) ∧ t = floatRepr q := by
  cases a with
  | bool b =>
    cases h
    cases b <;> exact Or.inr (Or.inl (by decide))
  | int n =>
    have htext : SemVer.intStr n = .ok t := h
    unfold SemVer.intStr at htext
    split_ifs at htext
    exact Or.inr (Or.inr (Or.inl ⟨n, rfl, (Except.ok.inj htext).symm⟩))
  | float x =>
    cases h
    cases x with
    | finite q => exact Or.inr (Or.inr (Or.inr ⟨q, rfl, rfl⟩))
    | _ => exact Or.inr (Or.inl (by simp [literals, floatText]))
  | str s =>
    cases h
    exact Or.inl ⟨s, rfl, rfl⟩

theorem word_append_inj {w w' r r' : List Char}
    (hw : ∀ c ∈ w, c ≠ ',' ∧ c ≠ ']' ∧ c ≠ '\x7d')
    (hw' : ∀ c ∈ w', c ≠ ',' ∧ c ≠ ']' ∧ c ≠ '\x7d') (hr : Delimited r) (hr' : Delimited r')
    (h : w ++ r = w' ++ r') : w = w' ∧ r = r' := by
  have hnot : ∀ {c : Char} {v s s' : List Char}, (c ≠ ',' ∧ c ≠ ']' ∧ c ≠ '\x7d') → Delimited s →
      s ≠ c :: v ++ s' := by
    intro c v s s' hc hs heq
    rw [heq] at hs
    rcases hs c rfl with h | h | h
    · exact hc.1 h
    · exact hc.2.1 h
    · exact hc.2.2 h
  induction w generalizing w' with
  | nil =>
    cases w' with
    | nil => exact ⟨rfl, h⟩
    | cons c' w' => exact absurd h (hnot (hw' c' List.mem_cons_self) hr)
  | cons c w ih =>
    cases w' with
    | nil => exact absurd h.symm (hnot (hw c List.mem_cons_self) hr')
    | cons c' w' =>
      obtain ⟨hc, hrest⟩ := List.cons.inj h
      obtain ⟨hww, hrr⟩ := ih (fun d hd => hw d (List.mem_cons_of_mem c hd))
        (fun d hd => hw' d (List.mem_cons_of_mem c' hd)) hrest
      exact ⟨by rw [hc, hww], hrr⟩

section
variable {floatRepr : ℚ → String} (hfloat : FloatDigits floatRepr)
include hfloat

variable {t : String}

theorem strictText_word (h : a.text floatRepr = .ok t) (hstr : ∀ s, a ≠ .str s) :
    (∃ c rest, t.toList = c :: rest ∧ c ∉ [',', ']', '\x7d', '[', '\x7b', '"', 'n']) ∧
      ∀ c ∈ t.toList, c ≠ ',' ∧ c ≠ ']' ∧ c ≠ '\x7d' := by
  have hnumber : ∀ {l : List Char}, l ≠ [] → (∀ c ∈ l, IsNumeric c) →
      (∃ c rest, l = c :: rest ∧ c ∉ [',', ']', '\x7d', '[', '\x7b', '"', 'n']) ∧
        ∀ c ∈ l, c ≠ ',' ∧ c ≠ ']' ∧ c ≠ '\x7d' := by
    intro l hne hl
    obtain ⟨c, rest, hc⟩ := List.exists_cons_of_ne_nil hne
    refine ⟨⟨c, rest, hc, not_mem_of_isNumeric (hl c (by simp [hc]))⟩, fun d hd => ?_⟩
    have hnot := not_mem_of_isNumeric (hl d hd)
    simp only [List.mem_cons, List.not_mem_nil, or_false, not_or] at hnot
    exact ⟨hnot.1, hnot.2.1, hnot.2.2.1⟩
  rcases strictText_cases h with ⟨s, hs, -⟩ | hliteral | ⟨n, -, ht⟩ | ⟨q, -, ht⟩
  · exact absurd hs (hstr s)
  · have hhead : ∀ e ∈ literals, ∀ c ∈ e.1.toList.head?,
        c ∉ [',', ']', '\x7d', '[', '\x7b', '"', 'n'] := by simp [literals]
    have hall : ∀ e ∈ literals, e.1.toList ≠ [] ∧
        ∀ c ∈ e.1.toList, c ≠ ',' ∧ c ≠ ']' ∧ c ≠ '\x7d' := by simp [literals]
    obtain ⟨c, rest, hc⟩ := List.exists_cons_of_ne_nil (hall _ hliteral).1
    exact ⟨⟨c, rest, hc, hhead _ hliteral c (by rw [hc]; rfl)⟩, (hall _ hliteral).2⟩
  · rw [ht]
    exact hnumber (intText_ne_empty n) fun c hc => isNumeric_of_mem_intText hc
  · rw [ht]
    obtain ⟨c, hc, -⟩ := hfloat.marked q
    exact hnumber (List.ne_nil_of_mem hc) (hfloat.numeric q)

/-- Different leaves that are no strings have different texts. -/
theorem strictText_inj {a a' : StrictJsonPrimitive} (h : a.text floatRepr = .ok t)
    (h' : a'.text floatRepr = .ok t) (hstr : ∀ s, a ≠ .str s) (hstr' : ∀ s, a' ≠ .str s) :
    a = a' := by
  -- a literal has a character that is in no number
  have hletter : ∀ e ∈ literals, ∃ c ∈ e.1.toList, ¬ IsNumeric c := by
    simp [literals]
    decide
  have hmark : ∀ (n : ℤ) (q : ℚ), toString n ≠ floatRepr q := by
    intro n q heq
    obtain ⟨c, hc, hmarked⟩ := hfloat.marked q
    rw [← heq] at hc
    rcases digit_of_mem_intText hc with hd | hd <;> rcases hmarked with rfl | rfl <;>
      exact absurd hd (by decide)
  have hkeys : ∀ e ∈ literals, ∀ e' ∈ literals, e.1 = e'.1 → e.2 = e'.2 := by decide
  rcases strictText_cases h with ⟨s, hs, -⟩ | hl | ⟨n, ha, ht⟩ | ⟨q, ha, ht⟩
  · exact absurd hs (hstr s)
  · obtain ⟨c, hc, hnot⟩ := hletter _ hl
    rcases strictText_cases h' with ⟨s, hs, -⟩ | hl' | ⟨n, -, ht'⟩ | ⟨q, -, ht'⟩
    · exact absurd hs (hstr' s)
    · exact hkeys _ hl _ hl' rfl
    · rw [ht'] at hc
      exact absurd (isNumeric_of_mem_intText hc) hnot
    · rw [ht'] at hc
      exact absurd (hfloat.numeric q c hc) hnot
  · rcases strictText_cases h' with ⟨s, hs, -⟩ | hl' | ⟨n', ha', ht'⟩ | ⟨q, -, ht'⟩
    · exact absurd hs (hstr' s)
    · obtain ⟨c, hc, hnot⟩ := hletter _ hl'
      rw [ht] at hc
      exact absurd (isNumeric_of_mem_intText hc) hnot
    · rw [ha, ha', intText_inj (ht.symm.trans ht')]
    · exact absurd (ht.symm.trans ht') (hmark n q)
  · rcases strictText_cases h' with ⟨s, hs, -⟩ | hl' | ⟨n, -, ht'⟩ | ⟨q', ha', ht'⟩
    · exact absurd hs (hstr' s)
    · obtain ⟨c, hc, hnot⟩ := hletter _ hl'
      rw [ht] at hc
      exact absurd (hfloat.numeric q c hc) hnot
    · exact absurd (ht'.symm.trans ht) (hmark n q)
    · rw [ha, ha', hfloat.injective (ht.symm.trans ht')]

theorem jsonString_ne_word {s : String} {r r' : List Char}
    (h : a.text floatRepr = .ok t) (hstr : ∀ s, a ≠ .str s) :
    (jsonString s).toList ++ r ≠ t.toList ++ r' := by
  intro heq
  obtain ⟨⟨c, rest, hc, hnot⟩, -⟩ := strictText_word hfloat h hstr
  rw [hc, toList_jsonString] at heq
  rw [← (List.cons.inj heq).1] at hnot
  exact absurd hnot (by decide)

/-- The leaves of `StrictJsonType` are determined by their texts. -/
theorem strictText_leafCode : LeafCode (StrictJsonPrimitive.text floatRepr) := by
  constructor
  · intro a a' t t' r r' h h' hr hr' heq
    by_cases hstr : ∃ s, a = .str s <;> by_cases hstr' : ∃ s', a' = .str s'
    · obtain ⟨s, rfl⟩ := hstr
      obtain ⟨s', rfl⟩ := hstr'
      cases h
      cases h'
      obtain ⟨hs, hrest⟩ := jsonString_append_inj heq
      exact ⟨congrArg StrictJsonPrimitive.str hs, hrest⟩
    · obtain ⟨s, rfl⟩ := hstr
      cases h
      exact absurd heq (jsonString_ne_word hfloat h' (not_exists.mp hstr'))
    · obtain ⟨s', rfl⟩ := hstr'
      cases h'
      exact absurd heq.symm (jsonString_ne_word hfloat h (not_exists.mp hstr))
    · obtain ⟨htext, hrest⟩ := word_append_inj (strictText_word hfloat h (not_exists.mp hstr)).2
        (strictText_word hfloat h' (not_exists.mp hstr')).2 hr hr' heq
      rw [String.toList_injective htext] at h
      exact ⟨strictText_inj hfloat h h' (not_exists.mp hstr) (not_exists.mp hstr'), hrest⟩
  · intro a t h
    by_cases hstr : ∃ s, a = .str s
    · obtain ⟨s, rfl⟩ := hstr
      cases h
      exact ⟨'"', _, toList_jsonString s, by decide⟩
    · obtain ⟨⟨c, rest, hc, hnot⟩, -⟩ := strictText_word hfloat h (not_exists.mp hstr)
      refine ⟨c, rest, hc, ?_⟩
      simp only [List.mem_cons, List.not_mem_nil, or_false, not_or] at hnot ⊢
      tauto

/-- So are the leaves of `JsonType` that have texts. -/
theorem jsonText_leafCode : LeafCode (JsonPrimitive.text floatRepr) := by
  have hstrict := strictText_leafCode hfloat
  constructor
  · intro a a' t t' r r' h h' hr hr' heq
    cases a with
    | strict p =>
      cases a' with
      | strict p' =>
        obtain ⟨hp, hrest⟩ := hstrict.decodes p p' t t' r r' h h' hr hr' heq
        exact ⟨congrArg JsonPrimitive.strict hp, hrest⟩
      | _ => exact nomatch h'
    | _ => exact nomatch h
  · intro a t h
    cases a with
    | strict p => exact hstrict.opens p t h
    | _ => exact nomatch h

end

end OmnibaseCore
