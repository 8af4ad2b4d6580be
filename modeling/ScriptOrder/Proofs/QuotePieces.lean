import Mathlib.Data.List.Basic
import ScriptOrder.Proofs.Enclosures

/-!
# The pieces of a line

A grammar of the strings in a line, apart from the scanner that reads them: texts
without quotes and hash signs, strings in single or double quotes and strings in
triple quotes. The scanner is in no string after each whole piece. It knows ASCII
only, so a line may be given to it as the bytes of its characters.
-/

set_option autoImplicit false

namespace ScriptOrder.Quotes

/-- What stands between two quotes `q`: none of it closes the string, and each
backslash stands before a character. -/
inductive Body (q : Char) : List Char → Prop
  | nil : Body q []
  | other {c : Char} {body : List Char} : c ≠ q → c ≠ '\\' → Body q body → Body q (c :: body)
  | escape {c : Char} {body : List Char} : Body q body → Body q ('\\' :: c :: body)

/-- The first triple quote of the text and a triple quote after it is the latter. -/
def ClosedLast (body : List Char) : Prop :=
  ∀ front back, body ++ triple = front ++ (triple ++ back) → front = body

inductive Piece : List Char → Prop
  | plain {s : List Char} : (∀ c ∈ s, c ≠ '#' ∧ c ≠ '"' ∧ c ≠ '\'') → Piece s
  | single {body : List Char} : Body '\'' body → Piece ('\'' :: (body ++ ['\'']))
  | double {body : List Char} : body ≠ [] → Body '"' body → Piece ('"' :: (body ++ ['"']))
  | tripled {body : List Char} : ClosedLast body → Piece (triple ++ (body ++ triple))

variable {m : Mode} {q c : Char} {s t body : List Char}

theorem closedLast_iff : ClosedLast body ↔
    ∀ i < body.length, ¬ triple <+: (body ++ triple).drop i := by
  constructor
  · rintro h i hi ⟨back, hback⟩
    have hfront := h ((body ++ triple).take i) back (by rw [hback, List.take_append_drop])
    have hlen := congrArg List.length hfront
    simp only [List.length_take, List.length_append] at hlen
    omega
  · intro h front back hsplit
    have hlen := congrArg List.length hsplit
    simp only [List.length_append] at hlen
    by_cases hfront : front.length < body.length
    · exact absurd ⟨back, by rw [hsplit, List.drop_left]⟩ (h front.length hfront)
    · exact (List.append_inj_left hsplit (by omega)).symm

instance (body : List Char) : Decidable (ClosedLast body) := decidable_of_iff' _ closedLast_iff

theorem openIn_plain_triple (t : List Char) : openIn .plain (triple ++ t) = openIn .tripled t := rfl

theorem openIn_tripled_triple (t : List Char) : openIn .tripled (triple ++ t) = openIn .plain t := rfl

theorem openIn_plain_cons (h : ¬ triple <+: c :: t) : openIn .plain (c :: t) =
    if c = '#' then false
    else if c = '"' ∨ c = '\'' then openIn (.quoted c) t else openIn .plain t := by
  rw [openIn]
  rintro rest rfl rfl
  exact h ⟨rest, rfl⟩

theorem openIn_tripled_cons (h : ¬ triple <+: c :: t) :
    openIn .tripled (c :: t) = openIn .tripled t := by
  rw [openIn]
  rintro rest rfl rfl
  exact h ⟨rest, rfl⟩

theorem openIn_quoted_escape (t : List Char) :
    openIn (.quoted q) ('\\' :: c :: t) = openIn (.quoted q) t := by simp [openIn]

theorem openIn_quoted_cons (h : c ≠ '\\') : openIn (.quoted q) (c :: t) =
    if c = q then openIn .plain t else openIn (.quoted q) t := by
  rw [openIn]
  · rintro rfl
    exact absurd rfl h
  · rintro _ _ rfl
    exact absurd rfl h

theorem not_triple_cons (h : c ≠ '"') : ¬ triple <+: c :: t := fun hprefix =>
  h (List.cons_prefix_cons.mp hprefix).1.symm

theorem openIn_body (h : Body q body) (hq : q ≠ '\\') (t : List Char) :
    openIn (.quoted q) (body ++ q :: t) = openIn .plain t := by
  induction h with
  | nil => rw [List.nil_append, openIn_quoted_cons hq, if_pos rfl]
  | other hne hback _ ih => rw [List.cons_append, openIn_quoted_cons hback, if_neg hne, ih]
  | escape _ ih => rw [List.cons_append, List.cons_append, openIn_quoted_escape, ih]

theorem Body.head_ne (h : Body q body) (hq : q ≠ '\\') : body.head? ≠ some q := by
  cases h with
  | nil => simp
  | other hne _ _ => simpa using hne
  | escape _ => simpa using hq.symm

theorem ClosedLast.tail (h : ClosedLast (c :: body)) : ClosedLast body := by
  intro front back hsplit
  exact (List.cons.inj (h (c :: front) back (by rw [List.cons_append, hsplit, List.cons_append]))).2

theorem openIn_closedLast (h : ClosedLast body) (t : List Char) :
    openIn .tripled (body ++ (triple ++ t)) = openIn .plain t := by
  induction body with
  | nil => exact openIn_tripled_triple t
  | cons c body ih =>
    have hnot : ¬ triple <+: c :: (body ++ (triple ++ t)) := by
      intro hprefix
      have hwithin : triple <+: c :: body ++ triple :=
        List.prefix_of_prefix_length_le hprefix ⟨t, by simp⟩ (by simp; omega)
      obtain ⟨back, hback⟩ := hwithin
      exact absurd (h [] back hback.symm) (by simp)
    rw [List.cons_append, openIn_tripled_cons hnot, ih h.tail]

theorem openIn_free (h : ¬ triple <:+: t) : openIn .tripled t = true := by
  induction t with
  | nil => rfl
  | cons c t ih =>
    rw [List.infix_cons_iff, not_or] at h
    rw [openIn_tripled_cons h.1, ih h.2]

theorem Piece.openIn_append (h : Piece s) (t : List Char) :
    openIn .plain (s ++ t) = openIn .plain t := by
  cases h with
  | plain hplain =>
    induction s with
    | nil => rfl
    | cons c s ih =>
      rw [List.forall_mem_cons] at hplain
      obtain ⟨⟨hhash, hdouble, hsingle⟩, hrest⟩ := hplain
      rw [List.cons_append, openIn_plain_cons (not_triple_cons hdouble), if_neg hhash,
        if_neg (by simp [hdouble, hsingle]), ih hrest]
  | single hbody =>
    rw [List.cons_append, openIn_plain_cons (not_triple_cons (by decide)), if_neg (by decide),
      if_pos (by decide), List.append_assoc]
    exact openIn_body hbody (by decide) t
  | @double body hne hbody =>
    obtain ⟨c, rest, rfl⟩ := List.exists_cons_of_ne_nil hne
    have hc : c ≠ '"' := by simpa using hbody.head_ne (by decide)
    have hnot : ¬ triple <+: '"' :: (c :: rest ++ ['"'] ++ t) := fun hprefix =>
      hc (List.cons_prefix_cons.mp (List.cons_prefix_cons.mp hprefix).2).1.symm
    rw [List.cons_append, openIn_plain_cons hnot, if_neg (by decide), if_pos (by decide),
      List.append_assoc]
    exact openIn_body hbody (by decide) t
  | tripled hclosed =>
    rw [List.append_assoc, List.append_assoc, openIn_plain_triple, openIn_closedLast hclosed]

theorem openIn_pieces {pieces : List (List Char)} (h : ∀ s ∈ pieces, Piece s) (t : List Char) :
    openIn .plain (pieces.flatten ++ t) = openIn .plain t := by
  induction pieces with
  | nil => rfl
  | cons s pieces ih =>
    rw [List.forall_mem_cons] at h
    rw [List.flatten_cons, List.append_assoc, h.1.openIn_append, ih h.2]

def special : List Char := ['#', '"', '\'', '\\']

/-- Each other character is written with one or more others. -/
def Recodes (f : Char → List Char) : Prop := ∀ c : Char,
  (c ∈ special → f c = [c]) ∧ (c ∉ special → f c ≠ [] ∧ ∀ d ∈ f c, d ∉ special)

def Mode.Special (m : Mode) : Prop := ∀ q, m = .quoted q → q ∈ special

variable {f : Char → List Char}

theorem openIn_ordinary (hm : m.Special) (hs : ∀ d ∈ s, d ∉ special) (t : List Char) :
    openIn m (s ++ t) = openIn m t := by
  induction s with
  | nil => rfl
  | cons c s ih =>
    rw [List.forall_mem_cons] at hs
    have hne (d : Char) (hd : d ∈ special) : c ≠ d := fun hcd => hs.1 (hcd ▸ hd)
    rw [List.cons_append, ← ih hs.2]
    cases m with
    | plain =>
      rw [openIn_plain_cons (not_triple_cons (hne '"' (by decide))), if_neg (hne '#' (by decide)),
        if_neg (by simp [hne '"' (by decide), hne '\'' (by decide)])]
    | tripled => rw [openIn_tripled_cons (not_triple_cons (hne '"' (by decide)))]
    | quoted q => rw [openIn_quoted_cons (hne '\\' (by decide)), if_neg (hne q (hm q rfl))]

theorem Recodes.triple_append (hf : Recodes f) (t : List Char) :
    (triple ++ t).flatMap f = triple ++ t.flatMap f := by
  simp [triple, (hf '"').1 (by decide)]

theorem triple_special : ∀ d ∈ triple, d ∈ special := by simp [triple, special]

theorem Recodes.prefix_iff (hf : Recodes f) {w : List Char} (hw : ∀ c ∈ w, c ∈ special)
    (line : List Char) : w <+: line.flatMap f ↔ w <+: line := by
  induction w generalizing line with
  | nil => simp
  | cons c w ih =>
    rw [List.forall_mem_cons] at hw
    cases line with
    | nil => simp
    | cons d line =>
      by_cases hd : d ∈ special
      · rw [List.flatMap_cons, (hf d).1 hd, List.singleton_append, List.cons_prefix_cons,
          List.cons_prefix_cons, ih hw.2]
      · obtain ⟨hne, hall⟩ := (hf d).2 hd
        obtain ⟨e, es, hfd⟩ := List.exists_cons_of_ne_nil hne
        have hce : c ≠ e := fun heq => hall e (by simp [hfd]) (heq ▸ hw.1)
        have hcd : c ≠ d := fun heq => hd (heq ▸ hw.1)
        rw [List.flatMap_cons, hfd, List.cons_append, List.cons_prefix_cons, List.cons_prefix_cons]
        simp [hce, hcd]

theorem exists_after_triple (h : triple <+: c :: t) :
    ∃ rest, c :: t = triple ++ rest ∧ rest.length ≤ t.length := by
  obtain ⟨rest, hrest⟩ := h
  have hlen := congrArg List.length hrest
  simp only [List.length_append, List.length_cons, triple] at hlen
  exact ⟨rest, hrest.symm, by omega⟩

section Step

variable (hf : Recodes f) (hc : c ∈ special)
  (hrest : ∀ m : Mode, m.Special → ∀ u : List Char, u.length ≤ t.length →
    openIn m (u.flatMap f) = openIn m u)
include hf hc hrest

theorem recoded_plain : openIn .plain ((c :: t).flatMap f) = openIn .plain (c :: t) := by
  have hquotes := hf.prefix_iff triple_special (c :: t)
  by_cases htriple : triple <+: c :: t
  · obtain ⟨rest, heq, hlen⟩ := exists_after_triple htriple
    rw [heq, hf.triple_append, openIn_plain_triple, openIn_plain_triple,
      hrest .tripled nofun rest hlen]
  · rw [List.flatMap_cons, (hf c).1 hc, List.singleton_append] at hquotes ⊢
    have hquoted : Mode.Special (.quoted c) := by
      rintro _ ⟨⟩
      exact hc
    rw [openIn_plain_cons htriple, openIn_plain_cons (mt hquotes.mp htriple),
      hrest .plain nofun t (Nat.le_refl _), hrest (.quoted c) hquoted t (Nat.le_refl _)]

theorem recoded_tripled : openIn .tripled ((c :: t).flatMap f) = openIn .tripled (c :: t) := by
  have hquotes := hf.prefix_iff triple_special (c :: t)
  by_cases htriple : triple <+: c :: t
  · obtain ⟨rest, heq, hlen⟩ := exists_after_triple htriple
    rw [heq, hf.triple_append, openIn_tripled_triple, openIn_tripled_triple,
      hrest .plain nofun rest hlen]
  · rw [List.flatMap_cons, (hf c).1 hc, List.singleton_append] at hquotes ⊢
    rw [openIn_tripled_cons htriple, openIn_tripled_cons (mt hquotes.mp htriple),
      hrest .tripled nofun t (Nat.le_refl _)]

theorem recoded_quoted (hq : Mode.Special (.quoted q)) :
    openIn (.quoted q) ((c :: t).flatMap f) = openIn (.quoted q) (c :: t) := by
  rw [List.flatMap_cons, (hf c).1 hc, List.singleton_append]
  by_cases hback : c = '\\'
  · subst hback
    cases t with
    | nil => rfl
    | cons d t =>
      -- The backslash hides the first character that is written for the next one, and
      -- the others close no string.
      obtain ⟨e, es, hfd, hordinary⟩ : ∃ e es, f d = e :: es ∧ ∀ x ∈ es, x ∉ special := by
        by_cases hd : d ∈ special
        · exact ⟨d, [], (hf d).1 hd, by simp⟩
        · obtain ⟨hne, hall⟩ := (hf d).2 hd
          obtain ⟨e, es, hfd⟩ := List.exists_cons_of_ne_nil hne
          exact ⟨e, es, hfd, fun x hx => hall x (by simp [hfd, hx])⟩
      rw [List.flatMap_cons, hfd, List.cons_append, openIn_quoted_escape, openIn_quoted_escape,
        openIn_ordinary hq hordinary, hrest _ hq t (by simp)]
  · rw [openIn_quoted_cons hback, openIn_quoted_cons hback, hrest .plain nofun t (Nat.le_refl _),
      hrest _ hq t (Nat.le_refl _)]

end Step

theorem openIn_recoded (hf : Recodes f) (hm : m.Special) (line : List Char) :
    openIn m (line.flatMap f) = openIn m line := by
  -- A step takes up to three characters, so the induction is on the length of the line.
  induction hn : line.length using Nat.strongRecOn generalizing m line with
  | _ n ih =>
  subst hn
  cases line with
  | nil => rfl
  | cons c t =>
    have hrest (m : Mode) (hm : m.Special) (u : List Char) (hu : u.length ≤ t.length) :
        openIn m (u.flatMap f) = openIn m u :=
      ih u.length (by rw [List.length_cons]; omega) hm u rfl
    by_cases hc : c ∈ special
    · cases m with
      | plain => exact recoded_plain hf hc hrest
      | tripled => exact recoded_tripled hf hc hrest
      | quoted q => exact recoded_quoted hf hc hrest hm
    · obtain ⟨-, hordinary⟩ := (hf c).2 hc
      have hskip : openIn m ([c] ++ t) = openIn m t :=
        openIn_ordinary hm (by simpa using hc) t
      rw [List.flatMap_cons, openIn_ordinary hm hordinary, hrest m hm t (Nat.le_refl _)]
      exact hskip.symm

theorem leavesOpen_recoded (hf : Recodes f) (isOpen : Bool) (line : List Char) :
    leavesOpen isOpen (line.flatMap f) = leavesOpen isOpen line := by
  have hspecial : Mode.Special (if isOpen then .tripled else .plain) := by
    cases isOpen
    · rintro _ ⟨⟩
    · rintro _ ⟨⟩
  exact openIn_recoded hf hspecial line

theorem not_special (hc : 128 ≤ c.toNat) : c ∉ special := by
  have hascii : ∀ d ∈ special, d.toNat < 128 := by simp [special]
  exact fun hmem => Nat.not_lt.mpr hc (hascii c hmem)

theorem recodes_exchange {g : Char → Char} (hascii : ∀ c, c.toNat < 128 → g c = c)
    (hother : ∀ c, 128 ≤ c.toNat → g c ∉ special) : Recodes fun c => [g c] := by
  intro c
  by_cases hc : c.toNat < 128
  · simp [hascii c hc]
  · have hc' : 128 ≤ c.toNat := by omega
    exact ⟨fun hmem => absurd hmem (not_special hc'), fun _ => by simpa using hother c hc'⟩

/-- The bytes of a character in UTF-8, each as the character of its number. -/
def bytes (c : Char) : List Char :=
  (String.utf8EncodeChar c).map fun b => Char.ofNat b.toNat

theorem byte_number (b : UInt8) : (Char.ofNat b.toNat).toNat = b.toNat := by
  have hb := b.toNat_lt
  rw [Char.ofNat, dif_pos (Or.inl (by omega))]
  rfl

theorem byte_foreign {b : UInt8} (hc : 128 ≤ c.toNat) (hb : b ∈ String.utf8EncodeChar c) :
    128 ≤ b.toNat := by
  have hbyte (n : Nat) (hn : n < 256) (hlow : 128 ≤ n) : 128 ≤ (UInt8.ofNat n).toNat := by
    rwa [UInt8.toNat_ofNat_of_lt' hn]
  simp only [String.utf8EncodeChar, Char.toNat_val] at hb
  rw [if_neg (by omega)] at hb
  split_ifs at hb <;> simp only [List.mem_cons, List.not_mem_nil, or_false] at hb
  · rcases hb with rfl | rfl <;> exact hbyte _ (by omega) (by omega)
  · rcases hb with rfl | rfl | rfl <;> exact hbyte _ (by omega) (by omega)
  · rcases hb with rfl | rfl | rfl | rfl <;> exact hbyte _ (by omega) (by omega)

theorem bytes_ascii (hc : c.toNat < 128) : bytes c = [c] := by
  have hone : String.utf8EncodeChar c = [UInt8.ofNat c.toNat] := by
    rw [String.utf8EncodeChar, Char.toNat_val]
    exact if_pos (by omega)
  have hlt : c.toNat < UInt8.size := Nat.lt_trans hc (by decide)
  rw [bytes, hone, List.map_singleton, UInt8.toNat_ofNat_of_lt' hlt, Char.ofNat_toNat]

theorem recodes_bytes : Recodes bytes := by
  intro c
  by_cases hc : c.toNat < 128
  · simp [bytes_ascii hc]
  · have hc' : 128 ≤ c.toNat := by omega
    refine ⟨fun hmem => absurd hmem (not_special hc'), fun _ => ⟨?_, fun d hd => ?_⟩⟩
    · exact mt List.map_eq_nil_iff.mp String.utf8EncodeChar_ne_nil
    · obtain ⟨b, hb, rfl⟩ := List.mem_map.mp hd
      exact not_special ((byte_number b).symm ▸ byte_foreign hc' hb)

/-- The scanner reads strings and comments as the grammar has them: after whole pieces
no string is open, a hash sign hides what follows it, and a triple quote opens a string
up to the next one. Characters outside ASCII count as any that are not special, and the
bytes of a line are read as the line is. -/
theorem scanner_reads_pieces :
    (∀ pieces : List (List Char), (∀ s ∈ pieces, Piece s) →
      leavesOpen false pieces.flatten = false ∧
      (∀ text, leavesOpen false (pieces.flatten ++ '#' :: text) = false) ∧
      ∀ text, ¬ triple <:+: text → leavesOpen false (pieces.flatten ++ (triple ++ text)) = true) ∧
    (∀ body, ClosedLast body → ∀ rest,
      leavesOpen true (body ++ (triple ++ rest)) = leavesOpen false rest) ∧
    (∀ g : Char → Char, (∀ c, c.toNat < 128 → g c = c) → (∀ c, 128 ≤ c.toNat → g c ∉ special) →
      ∀ isOpen line, leavesOpen isOpen (line.map g) = leavesOpen isOpen line) ∧
    ∀ isOpen line, leavesOpen isOpen (line.flatMap bytes) = leavesOpen isOpen line := by
  refine ⟨fun pieces hpieces => ⟨?_, fun text => ?_, fun text hfree => ?_⟩,
    fun body hbody rest => openIn_closedLast hbody rest, fun g hascii hother isOpen line => ?_,
    leavesOpen_recoded recodes_bytes⟩
  · have hend := openIn_pieces hpieces []
    rwa [List.append_nil] at hend
  · exact (openIn_pieces hpieces _).trans (openIn_hash _ rfl)
  · exact (openIn_pieces hpieces _).trans (openIn_free hfree)
  · rw [List.map_eq_flatMap]
    exact leavesOpen_recoded (recodes_exchange hascii hother) isOpen line

def stringLine : List (List Char) :=
  ["f(".toList, "'\"\\''".toList, "\"#é\\\"\"".toList, "\"\"\"a\"'\"\"\"".toList, "'b'".toList]

theorem stringLine_read : (∀ s ∈ stringLine, Piece s) ∧
    leavesOpen false stringLine.flatten = false ∧
    leavesOpen false (stringLine.flatten ++ '#' :: triple) = false ∧
    leavesOpen false (stringLine.flatten ++ (triple ++ "'é\"".toList)) = true ∧
    leavesOpen true ("a\"'".toList ++ (triple ++ stringLine.flatten)) = false ∧
    leavesOpen false ((stringLine.flatten).map fun c => if c.toNat < 128 then c else 'e') = false := by
  have hpieces : ∀ s ∈ stringLine, Piece s := by
    simp only [stringLine, List.forall_mem_cons]
    have htripled : Piece (triple ++ ("a\"'".toList ++ triple)) := .tripled (by decide)
    exact ⟨.plain (by simp), .single (.other (by decide) (by decide) (.escape .nil)),
      .double (by decide) (.other (by decide) (by decide) (.other (by decide) (by decide)
        (.escape .nil))),
      htripled, .single (.other (by decide) (by decide) .nil), List.forall_mem_nil _⟩
  obtain ⟨hread, hclosed, hexchange, -⟩ := scanner_reads_pieces
  obtain ⟨hnone, hhash, hopen⟩ := hread stringLine hpieces
  have hsame := hexchange (fun c => if c.toNat < 128 then c else 'e')
    (fun c hc => if_pos hc) (fun c hc => by rw [if_neg (by omega)]; decide) false stringLine.flatten
  exact ⟨hpieces, hnone, hhash triple, hopen _ (by decide),
    (hclosed _ (by decide) _).trans hnone, hsame.trans hnone⟩

end ScriptOrder.Quotes
