import SampleTypes.Proofs.Source.LineEnds

/-!
# Lines that import

A line that imports names from a module is read name by name: a name ends at a blank, at a comma or
at a point, and each of these stands in front of a name again. The names are identifiers of any
script. The reader goes by its own tables for them, and these only grow.

What the characters of a part are read as depends on what stands behind it, so every lemma says so
and they are put together from the end of the line.

## Main results

* `readsAsName_of_isIdentifier`: an identifier is read as one name.
* `scans_import`, `ofText_import`: the tokens of an import.
-/

namespace SampleTypes.Source

/-! ## Names -/

namespace Token

/-- What holds of every code of ASCII holds of every character of it. -/
theorem forall_ascii (P : Char → Prop) (h : ∀ code < 128, P (Char.ofNat code)) {c : Char}
    (hc : c.toNat < 128) : P c := by
  have hcode := h c.toNat hc
  rwa [Char.ofNat_toNat] at hcode

theorem isNameChar_of_isIdentifierRest {c : Char}
    (h : Text.CharClass.isIdentifierRest c = true) : isNameChar c = true := by
  by_cases hc : c.toNat < 128
  · have hascii : ∀ code < 128, Text.CharClass.isIdentifierRest (Char.ofNat code) = true →
        isNameChar (Char.ofNat code) = true := by decide +kernel
    exact forall_ascii (fun c => Text.CharClass.isIdentifierRest c = true → isNameChar c = true)
      hascii hc h
  · simp [isNameChar, Nat.le_of_not_lt hc]

theorem isDigit_of_isIdentifierStart {c : Char}
    (h : Text.CharClass.isIdentifierStart c = true) : isDigit c = false := by
  have hascii : ∀ code < 128, Text.CharClass.isIdentifierStart (Char.ofNat code) = true →
      isDigit (Char.ofNat code) = false := by decide +kernel
  cases hdigit : isDigit c with
  | false => rfl
  | true =>
    have hnine : c ≤ '9' := by
      simp only [isDigit, Bool.and_eq_true, decide_eq_true_eq] at hdigit
      exact hdigit.2
    have hc : c.toNat < 128 := Nat.lt_of_le_of_lt (Char.le_def.1 hnine) (by decide)
    rw [← hdigit]
    exact forall_ascii (fun c => Text.CharClass.isIdentifierStart c = true → isDigit c = false)
      hascii hc h

/-- An identifier is read as one name. What was an identifier when the generator was written is
still a word for the reader. -/
theorem readsAsName_of_isIdentifier {text : String}
    (h : Text.CharClass.isIdentifier text = true) : ReadsAsName text := by
  have hword : isName text = true := by
    rw [isName, Text.LaterClass.isWord_of_isIdentifier h, Bool.or_true]
  refine ⟨hword, ?_⟩
  unfold Text.CharClass.isIdentifier at h
  split at h
  · cases h
  · rename_i first others hchars
    simp only [Bool.and_eq_true, List.all_eq_true] at h
    obtain ⟨hstart, hrest⟩ := h
    refine ⟨first, others, hchars, isDigit_of_isIdentifierStart hstart, ?_⟩
    rw [List.forall_mem_cons]
    have hfirst : Text.CharClass.isIdentifierRest first = true := by
      rw [Text.CharClass.isIdentifierRest, ← Text.CharClass.isIdentifierStart, hstart,
        Bool.true_or]
    exact ⟨isNameChar_of_isIdentifierRest hfirst,
      fun c hc => isNameChar_of_isIdentifierRest (hrest c hc)⟩

/-! ## The tokens of a line -/

/-- A text ends every name in front of it. -/
def EndsName (rest : List Char) : Prop :=
  ∀ c ∈ rest.head?, isNameChar c = false ∧ isQuote c = false

/-- What characters inside a line are read as, in front of `rest`. Each step takes one of them, so
as many steps as there are characters will do. -/
def Scans (front : List Char) (gap last : Gap) (added : List Token) (rest : List Char) : Prop :=
  ∀ fuel found, (front ++ rest).length < fuel → ∃ fewer, rest.length < fewer ∧
    scan fuel .inside gap [{}] (within []) found.toArray (front ++ rest) =
      scan fewer .inside last [{}] (within []) (found ++ added).toArray rest

section

variable {front other rest : List Char} {gap between last : Gap} {added more : List Token}
  {c : Char} {text : String}

theorem Scans.append (h : Scans front gap between added (other ++ rest))
    (hother : Scans other between last more rest) :
    Scans (front ++ other) gap last (added ++ more) rest := by
  intro fuel found hfuel
  rw [List.append_assoc] at hfuel ⊢
  obtain ⟨fewer, hfewer, hfront⟩ := h fuel found hfuel
  obtain ⟨fewest, hfewest, hrest⟩ := hother fewer (found ++ added) hfewer
  exact ⟨fewest, hfewest, by rw [hfront, hrest, List.append_assoc]⟩

theorem scans_nil : Scans [] gap gap [] rest :=
  fun fuel found hfuel => ⟨fuel, hfuel, by rw [List.append_nil]; rfl⟩

/-- One step that finds a token. -/
theorem scans_step {kind : Kind} (hc : c ∉ [' ', '\t', '\x0c', '#', '\n', '\\'])
    (hstep : ∀ fuel, codeStep fuel (within []) (c :: (front ++ rest)) =
      .ok (some (kind, text), within [], rest)) :
    Scans (c :: front) gap .none [⟨kind, text, gap⟩] rest := by
  intro fuel found hfuel
  rw [List.cons_append, List.length_cons, List.length_append] at hfuel
  obtain ⟨fuel, rfl⟩ : ∃ fewer, fuel = fewer + 1 := ⟨fuel - 1, by omega⟩
  exact ⟨fuel, by omega, scan_token hc (hstep fuel)⟩

/-- **A blank** says that what stands behind it touches nothing. -/
theorem Scans.blank (h : Scans front .blanks last added rest) :
    Scans ([' '] ++ front) .none last added rest := by
  intro fuel found hfuel
  rw [List.append_assoc, List.singleton_append, List.length_cons] at hfuel
  obtain ⟨fuel, rfl⟩ : ∃ fewer, fuel = fewer + 1 := ⟨fuel - 1, by omega⟩
  obtain ⟨fewer, hfewer, hfront⟩ := h fuel found (by omega)
  refine ⟨fewer, hfewer, ?_⟩
  rw [List.append_assoc, List.singleton_append, ← hfront]
  exact scan_blank

/-- **A name.** -/
theorem scans_name (h : ReadsAsName text) (hrest : EndsName rest) :
    Scans text.toList gap .none [⟨.name, text, gap⟩] rest := by
  obtain ⟨-, first, others, hchars, -, hall⟩ := id h
  have hclear : ∀ c ∈ [' ', '\t', '\x0c', '#', '\n', '\\'], isNameChar c = false := by decide
  rw [hchars]
  refine scans_step (fun hmem => ?_) fun fuel => ?_
  · exact absurd (hall first List.mem_cons_self) (by simp [hclear first hmem])
  · rw [← List.cons_append, ← hchars]
    exact codeStep_name h hrest

/-- A name in which no line ends. -/
theorem return_notMem (h : ReadsAsName text) : '\r' ∉ text.toList := by
  obtain ⟨-, first, others, hchars, -, hall⟩ := h
  rw [hchars]
  exact fun hmem => absurd (hall '\r' hmem) (by decide)

/-- **A comma**, with a blank behind it. -/
theorem scans_comma : Scans [','] gap .none [⟨.mark, ",", gap⟩] (' ' :: rest) :=
  scans_step (by decide) fun _ => codeStep_mark (by decide) (by simp) (by simp)

/-- **A point**, with a name behind it. -/
theorem scans_point (h : ReadsAsName text) :
    Scans ['.'] gap .none [⟨.mark, ".", gap⟩] (text.toList ++ rest) := by
  obtain ⟨-, first, others, hchars, hdigit, hall⟩ := h
  have hname := hall first List.mem_cons_self
  have hpoint : first ≠ '.' := not_point_of_isNameChar hname
  have hlong : longMarks.findSome? (fun m => (after? m.toList ('.' :: (text.toList ++ rest))).map
      fun left => (m, left)) = none := by
    have hstarts : ∀ m ∈ longMarks, m.toList.head? = some '.' → m.toList = ['.', '.', '.'] := by
      decide
    refine List.findSome?_eq_none_iff.2 fun m hm => ?_
    rw [Option.map_eq_none_iff, hchars, List.cons_append]
    cases hm' : m.toList with
    | nil => exact absurd hm' (by revert m; decide)
    | cons mark marks =>
      by_cases hmark : mark = '.'
      · have hpoints := hstarts m hm (by rw [hm', hmark]; rfl)
        rw [hm'] at hpoints
        rw [hpoints]
        simp [after?, Ne.symm hpoint]
      · simp [after?, hmark]
  have hmark : mark? ('.' :: (text.toList ++ rest)) = some (".", text.toList ++ rest) := by
    rw [mark?, hlong]
    rfl
  refine scans_step (by decide) fun fuel => ?_
  have hdigits : ((text.toList ++ rest).head?.map isDigit).getD false = false := by
    rw [hchars]
    exact hdigit
  unfold codeStep
  simp only [List.nil_append, hdigits, within, List.map_nil, markStep, hmark]
  rfl

theorem endsName_nil : EndsName [] := nofun

/-- Neither blanks nor the marks between names go on with a name. -/
theorem endsName_cons (hc : c ∈ [' ', '.', ',']) (rest : List Char) : EndsName (c :: rest) := by
  have hclasses : ∀ c ∈ [' ', '.', ','], isNameChar c = false ∧ isQuote c = false := by decide
  rintro d ⟨⟩
  exact hclasses c hc

theorem endsName_flatMap {f : String → List Char} (hf : ∀ text rest, EndsName (f text ++ rest))
    (texts : List String) (hrest : EndsName rest) : EndsName (texts.flatMap f ++ rest) := by
  cases texts with
  | nil => exact hrest
  | cons text others =>
    rw [List.flatMap_cons, List.append_assoc]
    exact hf text _

/-- What comes behind the first name of a list: a mark and a name, over and over. -/
theorem scans_flatMap {f : String → List Char} {g : String → List Token} {texts : List String}
    (h : ∀ text ∈ texts, ∀ rest, EndsName rest → Scans (f text) .none .none (g text) rest)
    (hf : ∀ text rest, EndsName (f text ++ rest)) (hrest : EndsName rest) :
    Scans (texts.flatMap f) .none .none (texts.flatMap g) rest := by
  induction texts with
  | nil => exact scans_nil
  | cons text others ih =>
    rw [List.flatMap_cons, List.flatMap_cons]
    exact (h text List.mem_cons_self _ (endsName_flatMap hf others hrest)).append
      (ih fun other hother => h other (List.mem_cons_of_mem _ hother))

end

end Token

/-- A point and the part of a name behind it. -/
def pointChars (part : String) : List Char :=
  '.' :: part.toList

/-- A comma and the name behind it. -/
def commaChars (name : String) : List Char :=
  ',' :: ' ' :: name.toList

/-- The characters of an import: of the names `name :: names`, from the module whose name has the
parts `part :: parts`. -/
def importChars (part : String) (parts : List String) (name : String) (names : List String) :
    List Char :=
  "from".toList ++ ([' '] ++ (part.toList ++ (parts.flatMap pointChars ++ ([' '] ++
    ("import".toList ++ ([' '] ++ (name.toList ++ names.flatMap commaChars)))))))

/-- The tokens of a mark and the name behind it. -/
def pair (mark : String) (gap : Token.Gap) (text : String) : List Token :=
  [⟨.mark, mark, .none⟩, ⟨.name, text, gap⟩]

theorem length_pairs (mark : String) (gap : Token.Gap) (texts : List String) :
    (texts.flatMap (pair mark gap)).length = 2 * texts.length := by
  induction texts with
  | nil => rfl
  | cons text others ih =>
    rw [List.flatMap_cons, List.length_append, ih, List.length_cons]
    simp only [pair, List.length_cons, List.length_nil]
    omega

/-- The tokens of an import. -/
def importTokens (part : String) (parts : List String) (name : String) (names : List String) :
    List Token :=
  [⟨.name, "from", .none⟩] ++ ([⟨.name, part, .blanks⟩] ++ (parts.flatMap (pair "." .none) ++
    ([⟨.name, "import", .blanks⟩] ++ ([⟨.name, name, .blanks⟩] ++
      names.flatMap (pair "," .blanks)))))

/-- The tokens at the end of a text of one line. -/
def lineEnd : List Token :=
  [⟨.newline, "", .none⟩, ⟨.finish, "", .none⟩]

section

open Token

variable {part name : String} {parts names : List String} {rest : List Char}

theorem toList_intercalate (separator first : String) (others : List String) :
    (separator.intercalate (first :: others)).toList =
      first.toList ++ others.flatMap fun other => separator.toList ++ other.toList := by
  induction others generalizing first with
  | nil => simp
  | cons next later ih =>
    rw [String.intercalate_cons_of_ne_nil (List.cons_ne_nil _ _), String.toList_append,
      String.toList_append, ih, List.flatMap_cons]
    simp

/-- How an import is written. -/
theorem toList_import (part : String) (parts : List String) (name : String)
    (names : List String) :
    ("from " ++ ".".intercalate (part :: parts) ++ " import " ++
      ", ".intercalate (name :: names)).toList = importChars part parts name names := by
  simp only [String.toList_append, toList_intercalate, importChars, List.append_assoc]
  rfl

theorem scans_pointChars (h : ∀ part ∈ parts, ReadsAsName part) (hrest : EndsName rest) :
    Scans (parts.flatMap pointChars) .none .none (parts.flatMap (pair "." .none)) rest := by
  refine scans_flatMap (fun text htext rest hrest => ?_) (fun text rest => ?_) hrest
  · exact (scans_point (h text htext)).append (scans_name (h text htext) hrest)
  · exact endsName_cons (by decide) _

theorem scans_commaChars (h : ∀ name ∈ names, ReadsAsName name) (hrest : EndsName rest) :
    Scans (names.flatMap commaChars) .none .none (names.flatMap (pair "," .blanks)) rest := by
  refine scans_flatMap (fun text htext rest hrest => ?_) (fun text rest => ?_) hrest
  · exact scans_comma.append (scans_name (h text htext) hrest).blank
  · exact endsName_cons (by decide) _

/-- **The line of an import** is read name by name. -/
theorem scans_import (hpart : ReadsAsName part) (hparts : ∀ part ∈ parts, ReadsAsName part)
    (hname : ReadsAsName name) (hnames : ∀ name ∈ names, ReadsAsName name) :
    Scans (importChars part parts name names) .none .none (importTokens part parts name names)
      [] := by
  have hblank : ∀ front, EndsName ([' '] ++ front ++ []) :=
    fun front => endsName_cons (by decide) (front ++ [])
  have hfrom : ReadsAsName "from" := readsAsName_of_isWord (by decide)
  have himport : ReadsAsName "import" := readsAsName_of_isWord (by decide)
  have hcommas : EndsName (names.flatMap commaChars ++ []) :=
    endsName_flatMap (fun _ _ => endsName_cons (by decide) _) names endsName_nil
  have hpoints : ∀ front, EndsName (parts.flatMap pointChars ++ ([' '] ++ front) ++ []) := by
    intro front
    rw [List.append_assoc]
    exact endsName_flatMap (fun _ _ => endsName_cons (by decide) _) parts (hblank front)
  have hlast := ((scans_name hname hcommas).append (scans_commaChars hnames endsName_nil)).blank
  have hmiddle := ((scans_name himport (hblank _)).append hlast).blank
  have hfirst := ((scans_name hpart (hpoints _)).append
    ((scans_pointChars hparts (hblank _)).append hmiddle)).blank
  exact (scans_name hfrom (hblank _)).append hfirst

/-- **The tokens of an import.** -/
theorem ofText_import (hpart : ReadsAsName part) (hparts : ∀ part ∈ parts, ReadsAsName part)
    (hname : ReadsAsName name) (hnames : ∀ name ∈ names, ReadsAsName name) :
    Token.ofText (importChars part parts name names) =
      .ok (importTokens part parts name names ++ lineEnd).toArray := by
  have hreturn : '\r' ∉ importChars part parts name names := by
    have hfrom : '\r' ∉ "from".toList := by decide
    have himport : '\r' ∉ "import".toList := by decide
    have hpoints : '\r' ∉ parts.flatMap pointChars := by
      simp only [pointChars, List.mem_flatMap, List.mem_cons, not_exists, not_and, not_or]
      exact fun part hmem => ⟨by decide, return_notMem (hparts part hmem)⟩
    have hcommas : '\r' ∉ names.flatMap commaChars := by
      simp only [commaChars, List.mem_flatMap, List.mem_cons, not_exists, not_and, not_or]
      exact fun name hmem => ⟨by decide, by decide, return_notMem (hnames name hmem)⟩
    simp only [importChars, List.mem_append, not_or]
    exact ⟨hfrom, by decide, return_notMem hpart, hpoints, by decide, himport, by decide,
      return_notMem hname, hcommas⟩
  have hends : withLineFeeds (importChars part parts name names) =
      importChars part parts name names := by
    rw [← List.append_nil (importChars part parts name names),
      withLineFeeds_of_notMem hreturn, withLineFeeds]
  have hstart : ∀ fuel rest, scan (fuel + 1) .start .none (levels false) [] [].toArray
      (Line.margin false ++ 'f' :: rest) = scan fuel .inside .none (levels false) []
        ([] ++ Line.turn false false).toArray ('f' :: rest) :=
    fun fuel rest => scan_margin (by decide)
  have hlength : (importChars part parts name names ++ []).length <
      2 * (importChars part parts name names).length + 1 := by
    rw [List.append_nil]
    omega
  obtain ⟨fewer, hfewer, hscan⟩ := scans_import hpart hparts hname hnames _ [] hlength
  obtain ⟨last, rfl⟩ : ∃ last, fewer = last + 1 := ⟨fewer - 1, by omega⟩
  rw [List.append_nil] at hscan
  rw [Token.ofText, hends]
  refine ((hstart _ _).trans hscan).trans ?_
  rw [List.nil_append, ← List.toArray_appendList]
  rfl

end

end SampleTypes.Source
