import Mathlib
import TextToSql.Proofs.Decimal
import TextToSql.Sql.Printer
import TextToSql.Sql.Token

/-!
# Scanning printed pieces

What the printer writes is scanned piece by piece: each piece gives its own tokens, whatever follows, as
long as the next character cannot go on with the last token of the piece.

* `Scans.append`, `Free.append` : pieces one behind the other are scanned one after the other;
* `scans_quoteLiteral`, `scans_name`, `scans_word`, `scans_number` : the pieces that hold names and values.
-/

namespace TextToSql.Sql.Token

open Unicode

/-! ## One token -/

/-- A token at the start of a text, followed by the tokens of what is left. -/
theorem scan_of_first? (c : Char) (rest : List Char) (t : Option Token) (after : List Char)
    (h : first? c rest = some (t, after)) :
    scan (c :: rest) = (scan after).map (t.toList ++ ·) := by
  rw [scan.eq_def]
  dsimp only
  split
  · next heq => rw [h] at heq; cases heq
  · next heq => rw [h] at heq; cases heq; rfl

/-- There are no tokens in an empty text. -/
theorem scan_nil : scan [] = some [] := by rw [scan.eq_def]

/-- A space separates tokens and is none. -/
theorem scan_space (rest : List Char) : scan (' ' :: rest) = scan rest := by
  rw [scan_of_first? ' ' rest none rest (by simp [first?, show isSpace ' ' = true from rfl])]
  simp

/-- A quoted name. -/
theorem scan_name (s : String) (rest : List Char) (h : rest.head? ≠ some '"') :
    scan ((quoteIdentifier s).toList ++ rest) = (scan rest).map (.name s :: ·) := by
  have hread : undouble '"' (doubled '"' s.toList ++ '"' :: rest) = some (s.toList, rest) :=
    undouble_doubled '"' s.toList rest h
  have hfirst : first? '"' (doubled '"' s.toList ++ '"' :: rest) = some (some (.name s), rest) := by
    simp [first?, show isSpace '"' = false from rfl, hread]
  simpa [quoteIdentifier, quotedWith] using scan_of_first? _ _ _ _ hfirst

/-- A text literal. -/
theorem scan_text (s : String) (rest : List Char) (h : rest.head? ≠ some '\'') :
    scan ((quoteLiteral s).toList ++ rest) = (scan rest).map (.text s :: ·) := by
  have hread : undouble '\'' (doubled '\'' s.toList ++ '\'' :: rest) = some (s.toList, rest) :=
    undouble_doubled '\'' s.toList rest h
  have hfirst : first? '\'' (doubled '\'' s.toList ++ '\'' :: rest) = some (some (.text s), rest) := by
    simp [first?, show isSpace '\'' = false from rfl, hread]
  simpa [quoteLiteral, quotedWith] using scan_of_first? _ _ _ _ hfirst

/-- The code points of the characters that can start a word. -/
theorem startsWord_iff (c : Char) :
    startsWord c ↔ (65 ≤ c.toNat ∧ c.toNat ≤ 90) ∨ (97 ≤ c.toNat ∧ c.toNat ≤ 122) ∨ c.toNat = 95
      ∨ 128 ≤ c.toNat := by
  have hunderscore : c = '_' ↔ c.toNat = 95 := by rw [← Char.toNat_inj]; rfl
  simp only [startsWord, Bool.or_eq_true, decide_eq_true_eq, hunderscore]
  simp [Char.isAlpha, Char.isUpper, Char.isLower, UInt32.le_iff_toNat_le, or_assoc]

/-- Nothing above the space in the code chart is a separator. -/
theorem isSpace_eq_false (c : Char) (h : 32 < c.toNat) : isSpace c = false := by
  simp only [isSpace, isWhite, Bool.and_eq_false_iff, Bool.or_eq_false_iff, decide_eq_false_iff_not]
  omega

/-- Where a character can start a word, a word starts. -/
theorem first?_of_startsWord (c : Char) (rest : List Char) (h : startsWord c) :
    first? c rest
      = some (some (.word (String.ofList (c :: rest.takeWhile inWord))), rest.dropWhile inWord) := by
  have hcode := (startsWord_iff c).mp h
  have hne : ∀ d : Char, startsWord d = false → c ≠ d := by
    intro d hd hc
    rw [hc, hd] at h
    cases h
  have hspace : isSpace c = false := isSpace_eq_false c (by omega)
  have hdigit : c.isDigit = false := by
    rw [Bool.eq_false_iff]
    intro hd
    have hd := Char.isDigit_iff_toNat.mp hd
    simp only [Char.reduceToNat] at hd
    omega
  -- the branches for spaces, comments, quotes, numbers and points are ruled out one by one
  unfold first?
  simp [hspace, hdigit, h, hne '-' rfl, hne '/' rfl, hne '"' rfl, hne '\'' rfl, hne '.' rfl]

/-- A plain word. -/
theorem scan_word (w : String) (rest : List Char) (hw : isPlainAlias w)
    (h : ∀ c ∈ rest.head?, inWord c = false) :
    scan (w.toList ++ rest) = (scan rest).map (.word w :: ·) := by
  unfold isPlainAlias at hw
  split at hw
  · cases hw
  · next c cs heq =>
      rw [Bool.and_eq_true, List.all_eq_true] at hw
      have hc : startsWord c := by simp [startsWord, hw.1]
      have hcs : ∀ d ∈ cs, inWord d := by
        intro d hd
        have hplain := hw.2 d hd
        simp only [Char.isAlphanum, Bool.or_eq_true] at hplain
        simp only [inWord, startsWord, Bool.or_eq_true]
        tauto
      obtain ⟨htake, hdrop⟩ := Text.span_append inWord cs rest hcs h
      have hfirst := first?_of_startsWord c (cs ++ rest) hc
      rw [htake, hdrop, ← heq, String.ofList_toList] at hfirst
      rw [heq, List.cons_append, scan_of_first? _ _ _ _ hfirst]
      rfl

/-- What a numeral is followed by where it ends. -/
def EndsNumber (rest : List Char) : Prop :=
  ∀ c ∈ rest.head?, c.isDigit = false ∧ c ≠ '.' ∧ c ≠ 'e' ∧ c ≠ 'E'

/-- A numeral without its first digit is read as the rest of a number. -/
theorem numberAt_append (s rest : List Char) (hs : IsDecimal Char.isDigit s)
    (h : EndsNumber rest) :
    ∃ c tail, s = c :: tail ∧ c.isDigit ∧ numberAt (tail ++ rest) = (tail, rest) := by
  -- behind the numeral stands no digit, no exponent and no point that could go on with it
  have hdigit : ∀ c ∈ rest.head?, c.isDigit = false := fun c hc => (h c hc).1
  have hexponent : exponent rest = ([], rest) := by
    cases rest with
    | nil => rfl
    | cons c rest =>
        obtain ⟨_, _, he, hE⟩ := h c rfl
        simp [exponent, he, hE]
  have hpoint : fraction rest = ([], rest) := by
    cases rest with
    | nil => rfl
    | cons c rest => simp [fraction, (h c rfl).2.1]
  obtain ⟨whole, ⟨hne, hwhole⟩, hs⟩ := hs
  obtain ⟨c, tail, rfl⟩ := List.exists_cons_of_ne_nil hne
  obtain ⟨hc, htail⟩ := List.forall_mem_cons.mp hwhole
  rcases hs with rfl | ⟨decimals, ⟨_, hdecimals⟩, rfl⟩
  · refine ⟨c, tail, rfl, hc, ?_⟩
    obtain ⟨htake, hdrop⟩ := Text.span_append _ tail rest htail hdigit
    simp [numberAt, htake, hdrop, hpoint, hexponent]
  · refine ⟨c, tail ++ '.' :: decimals, rfl, hc, ?_⟩
    obtain ⟨htake, hdrop⟩ := Text.span_append _ tail ('.' :: (decimals ++ rest)) htail (by simp)
    obtain ⟨htake', hdrop'⟩ := Text.span_append _ decimals rest hdecimals hdigit
    simp [numberAt, fraction, htake, hdrop, htake', hdrop', hexponent]

/-- A number. -/
theorem scan_number (digits : String) (rest : List Char)
    (hdigits : IsDecimal Char.isDigit digits.toList) (h : EndsNumber rest) :
    scan (digits.toList ++ rest) = (scan rest).map (.number digits :: ·) := by
  obtain ⟨c, tail, heq, hc, hat⟩ := numberAt_append digits.toList rest hdigits h
  have hcode := Char.isDigit_iff_toNat.mp hc
  simp only [Char.reduceToNat] at hcode
  have hne : ∀ d : Char, d.isDigit = false → c ≠ d := by
    intro d hd hcd
    rw [hcd, hd] at hc
    cases hc
  have hspace : isSpace c = false := isSpace_eq_false c (by omega)
  have hfirst : first? c (tail ++ rest) = some (some (.number (String.ofList (c :: tail))), rest) := by
    simp [first?, hspace, hc, hat, hne '-' rfl, hne '/' rfl, hne '"' rfl, hne '\'' rfl]
  rw [← heq, String.ofList_toList] at hfirst
  rw [heq, List.cons_append, scan_of_first? _ _ _ _ hfirst]
  rfl

/-- A character that starts no symbol of two characters is a symbol of its own. -/
theorem symbolAt_single (c : Char) (rest : List Char) (hc : ∀ d, longSymbols.contains (c, d) = false) :
    symbolAt c rest = (.symbol (String.singleton c), rest) := by
  cases rest with
  | nil => rfl
  | cons d rest => simp only [symbolAt, hc d, Bool.false_eq_true, if_false]

/-- A parenthesis, a comma or a star. -/
theorem scan_symbol (c : Char) (rest : List Char) (hc : c ∈ ['(', ')', ',', '*']) :
    scan (c :: rest) = (scan rest).map (.symbol (String.singleton c) :: ·) := by
  have hsymbol : symbolAt c rest = (.symbol (String.singleton c), rest) := by
    apply symbolAt_single
    intro d
    simp only [List.mem_cons, List.not_mem_nil, or_false] at hc
    rcases hc with rfl | rfl | rfl | rfl <;> simp [longSymbols]
  have hfirst : first? c rest = some (some (symbolAt c rest).1, (symbolAt c rest).2) := by
    simp only [List.mem_cons, List.not_mem_nil, or_false] at hc
    rcases hc with rfl | rfl | rfl | rfl <;> rfl
  rw [hsymbol] at hfirst
  exact scan_of_first? _ _ _ _ hfirst

/-- A point that is not followed by a digit. -/
theorem scan_point (rest : List Char) (h : rest.head?.any Char.isDigit = false) :
    scan ('.' :: rest) = (scan rest).map (.symbol "." :: ·) := by
  have hsymbol : symbolAt '.' rest = (.symbol ".", rest) :=
    symbolAt_single '.' rest fun d => by simp [longSymbols]
  have hfirst : first? '.' rest = some (some (symbolAt '.' rest).1, (symbolAt '.' rest).2) := by
    show (if rest.head?.any Char.isDigit then _ else _) = _
    rw [h]
    rfl
  rw [hsymbol] at hfirst
  exact scan_of_first? _ _ _ _ hfirst

/-- The sign between a value and its type. -/
theorem scan_typeSign (rest : List Char) :
    scan (':' :: ':' :: rest) = (scan rest).map (.symbol "::" :: ·) :=
  scan_of_first? ':' (':' :: rest) (some (.symbol "::")) rest rfl

/-- The sign of a comparison before a space. -/
theorem scan_sign (op : Comparison) (rest : List Char) :
    scan (op.sign.toList ++ ' ' :: rest) = (scan rest).map (.symbol op.sign :: ·) := by
  have hfirst : ∃ c tail, op.sign.toList = c :: tail
      ∧ first? c (tail ++ ' ' :: rest) = some (some (.symbol op.sign), ' ' :: rest) := by
    cases op with
    | equal => exact ⟨'=', [], rfl, rfl⟩
    | notEqual => exact ⟨'!', ['='], rfl, rfl⟩
    | greater => exact ⟨'>', [], rfl, rfl⟩
    | less => exact ⟨'<', [], rfl, rfl⟩
    | atLeast => exact ⟨'>', ['='], rfl, rfl⟩
    | atMost => exact ⟨'<', ['='], rfl, rfl⟩
  obtain ⟨c, tail, heq, hfirst⟩ := hfirst
  rw [heq, List.cons_append, scan_of_first? _ _ _ _ hfirst, scan_space]
  rfl

/-! ## Pieces of a text -/

/-- Whether a character ends every token before it but a quoted one. -/
def closes (c : Char) : Bool := c = ' ' || c = ',' || c = ')'

/-- A text that ends every token before it: it is empty or starts with a closing character. -/
def Clear (rest : List Char) : Prop := rest.head?.all closes

/-- A piece that gives its tokens before any text that ends them. -/
def Scans (s : String) (ts : List Token) : Prop :=
  ∀ rest, Clear rest → scan (s.toList ++ rest) = (scan rest).map (ts ++ ·)

/-- A piece that gives its tokens before any text at all. -/
def Free (s : String) (ts : List Token) : Prop :=
  ∀ rest, scan (s.toList ++ rest) = (scan rest).map (ts ++ ·)

/-- The tokens of a piece that stands alone. -/
theorem Scans.ofText?_eq {s : String} {ts : List Token} (h : Scans s ts) : ofText? s = some ts := by
  have hscan := h [] rfl
  rw [List.append_nil, scan_nil, Option.map_some, List.append_nil] at hscan
  exact hscan

/-- A closing character is a space, a comma or a parenthesis. -/
theorem closes_iff (c : Char) : closes c ↔ c = ' ' ∨ c = ',' ∨ c = ')' := by
  simp [closes, or_assoc]

/-- The first character of a clear text is a closing one. -/
theorem Clear.closes_of_mem {rest : List Char} (h : Clear rest) : ∀ c ∈ rest.head?, closes c := by
  intro c hc
  rw [Clear, hc] at h
  exact h

/-- A text that starts with a closing character is clear, whatever follows. -/
theorem clear_of_closes {s : String} (h : s.toList.head?.any closes) (rest : List Char) :
    Clear (s.toList ++ rest) := by
  cases heq : s.toList with
  | nil => rw [heq] at h; cases h
  | cons c cs => rw [heq] at h; exact h

/-- No quote follows where the text is clear. -/
theorem Clear.head?_ne {rest : List Char} (h : Clear rest) (q : Char) (hq : closes q = false) :
    rest.head? ≠ some q := by
  intro hrest
  have hc := h.closes_of_mem q (by rw [hrest]; rfl)
  rw [hq] at hc
  cases hc

/-- A clear text goes on with no character of a class without closing characters. -/
theorem Clear.not_mem {rest : List Char} (h : Clear rest) (p : Char → Bool)
    (hp : ∀ c, closes c → p c = false) : ∀ c ∈ rest.head?, p c = false :=
  fun c hc => hp c (h.closes_of_mem c hc)

/-- A clear text ends a number. -/
theorem Clear.endsNumber {rest : List Char} (h : Clear rest) : EndsNumber rest := by
  intro c hc
  rcases (closes_iff c).mp (h.closes_of_mem c hc) with rfl | rfl | rfl <;> decide

/-- Tokens that are put in front one after the other are put in front together. -/
theorem map_append_map (ts ts' : List Token) (scanned : Option (List Token)) :
    (scanned.map (ts' ++ ·)).map (ts ++ ·) = scanned.map (ts ++ ts' ++ ·) := by
  rw [Option.map_map]
  congr 1
  funext us
  exact (List.append_assoc ts ts' us).symm

/-- A piece before which the tokens of the piece ahead of it end. -/
theorem Scans.append_free {s s' : String} {ts ts' : List Token} (h : Scans s ts)
    (h' : Free s' ts') (hs' : s'.toList.head?.any closes) : Free (s ++ s') (ts ++ ts') := by
  intro rest
  rw [String.toList_append, List.append_assoc, h _ (clear_of_closes hs' rest), h' rest]
  exact map_append_map ts ts' (scan rest)

/-- A piece after one that gives its tokens before any text. -/
theorem Free.append {s s' : String} {ts ts' : List Token} (h : Free s ts) (h' : Scans s' ts') :
    Scans (s ++ s') (ts ++ ts') := by
  intro rest hrest
  rw [String.toList_append, List.append_assoc, h, h' rest hrest]
  exact map_append_map ts ts' (scan rest)

/-- Two pieces, the second of which is empty or ends the tokens of the first. -/
theorem Scans.append {s s' : String} {ts ts' : List Token} (h : Scans s ts) (h' : Scans s' ts')
    (hs' : Clear s'.toList) : Scans (s ++ s') (ts ++ ts') := by
  intro rest hrest
  -- an empty second piece leaves the first one before `rest`
  have hclear : Clear (s'.toList ++ rest) := by
    cases heq : s'.toList with
    | nil => exact hrest
    | cons c cs => rw [heq] at hs'; exact hs'
  rw [String.toList_append, List.append_assoc, h _ hclear, h' rest hrest]
  exact map_append_map ts ts' (scan rest)

/-! ## The pieces of the printer -/

/-- The empty piece has no tokens. -/
theorem scans_empty : Scans "" [] := by
  intro rest _
  simp

/-- A quoted identifier. -/
theorem scans_name (s : String) : Scans (quoteIdentifier s) [.name s] :=
  fun rest hrest => scan_name s rest (hrest.head?_ne '"' rfl)

/-- A text literal. -/
theorem scans_text (s : String) : Scans (quoteLiteral s) [.text s] :=
  fun rest hrest => scan_text s rest (hrest.head?_ne '\'' rfl)

/-- A plain word. -/
theorem scans_word (w : String) (hw : isPlainAlias w) : Scans w [.word w] := by
  intro rest hrest
  refine scan_word w rest hw (hrest.not_mem inWord ?_)
  intro c hc
  rcases (closes_iff c).mp hc with rfl | rfl | rfl <;> rfl

/-- A number. -/
theorem scans_number (digits : String) (hdigits : IsDecimal Char.isDigit digits.toList) :
    Scans digits [.number digits] :=
  fun rest hrest => scan_number digits rest hdigits hrest.endsNumber

/-- A space. -/
theorem free_space : Free " " [] := by
  intro rest
  show scan (' ' :: rest) = _
  rw [scan_space]
  simp

/-- A keyword before a space. -/
theorem free_opening (k s : String) (hs : s = k ++ " ") (hk : isPlainAlias k) : Free s [.word k] := by
  rw [hs]
  exact (scans_word k hk).append_free free_space rfl

/-- A keyword between spaces. -/
theorem free_keyword (k s : String) (hs : s = " " ++ k ++ " ") (hk : isPlainAlias k) :
    Free s [.word k] := by
  rw [hs]
  have hleft : Scans (" " ++ k) ([] ++ [.word k]) := free_space.append (scans_word k hk)
  exact hleft.append_free free_space rfl

/-- Two keywords between spaces. -/
theorem free_keywords (k l s : String) (hs : s = " " ++ k ++ " " ++ (l ++ " "))
    (hk : isPlainAlias k) (hl : isPlainAlias l) : Free s [.word k, .word l] := by
  rw [hs, ← String.append_assoc]
  have hleft := (free_keyword k _ rfl hk).append (scans_word l hl)
  exact hleft.append_free free_space rfl

/-- A comma between two items. -/
theorem free_comma : Free ", " [.symbol ","] := by
  intro rest
  show scan (',' :: ' ' :: rest) = _
  rw [scan_symbol ',' _ (by simp), scan_space]
  rfl

/-- The name of a function with its opening parenthesis. -/
theorem free_call (f : String) (hf : isPlainAlias f) : Free (f ++ "(") [.word f, .symbol "("] := by
  intro rest
  rw [String.toList_append, List.append_assoc, scan_word f _ hf (by simp [inWord, startsWord]),
    show "(".toList ++ rest = '(' :: rest from rfl, scan_symbol '(' _ (by simp), Option.map_map]
  rfl

/-- A closing parenthesis. -/
theorem scans_close : Scans ")" [.symbol ")"] := by
  intro rest _
  exact scan_symbol ')' rest (by simp)

/-- The sign of a comparison between spaces. -/
theorem free_sign (op : Comparison) : Free (" " ++ op.sign ++ " ") [.symbol op.sign] := by
  intro rest
  rw [String.toList_append, String.toList_append, List.append_assoc, List.append_assoc,
    show " ".toList ++ (op.sign.toList ++ (" ".toList ++ rest))
      = ' ' :: (op.sign.toList ++ ' ' :: rest) from rfl, scan_space, scan_sign]
  rfl

/-- A date with its type. -/
theorem scans_date (s : String) :
    Scans (quoteLiteral s ++ "::date") [.text s, .symbol "::", .word "date"] := by
  intro rest hrest
  rw [String.toList_append, List.append_assoc,
    show "::date".toList ++ rest = ':' :: ':' :: ("date".toList ++ rest) from rfl,
    scan_text s _ (by simp), scan_typeSign, scans_word "date" rfl rest hrest, Option.map_map,
    Option.map_map]
  rfl

end TextToSql.Sql.Token
