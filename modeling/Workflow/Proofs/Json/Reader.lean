import Workflow.Json.Printer
import Workflow.Json.Reader

/-!
# JSON values are read as they were written

A value may be written on one line or over several, and it is read as itself in either layout
(`Json.read?_render`, `Json.read?_renderPretty`).  Both are texts of the value in the sense of a
grammar that leaves the layout open (`Json.Spells`), and every such text is read as the value it
spells, by induction on how it spells it, whatever follows it (`Json.Spells.readValue`).  Inside a
text a written character is read as one piece, so the text is read up to its closing quote
(`Json.readText_escaped`).

Numbers are left out.  Records have none, and a number may be read in another form than it was
written in.  `Json.plain` says of a value that it has no numbers, and with that how deep it is
nested, which is what readers ask who hold on to a datum.
-/

namespace Workflow.Json

/-! ## Plain values -/

mutual

/-- Whether the value has no numbers and its lists and objects are nested at most `levels` deep. -/
def plain (levels : Nat) : Json → Bool
  | null | bool _ | text _ => true
  | number _ => false
  | list items => decide (0 < levels) && plainList (levels - 1) items
  | object fields => decide (0 < levels) && plainFields (levels - 1) fields

/-- Whether every element is plain. -/
def plainList (levels : Nat) : List Json → Bool
  | [] => true
  | j :: js => plain levels j && plainList levels js

/-- Whether the value of every field is plain. -/
def plainFields (levels : Nat) : List (String × Json) → Bool
  | [] => true
  | (_, j) :: rest => plain levels j && plainFields levels rest

end

@[simp] theorem plain_text (most : Nat) (s : String) : (text s).plain most = true := rfl

@[simp] theorem plain_bool (most : Nat) (b : Bool) : (bool b).plain most = true := rfl

mutual

/-- The datum of a plain value fits where there is room for its levels. -/
theorem fits_ofJson {levels most : Nat} (hmost : levels ≤ most) :
    ∀ {j : Json}, j.plain levels = true → (Datum.ofJson j).fits most = true
  | null, _ => rfl
  | bool _, _ => rfl
  | text _, _ => rfl
  | list items, h => by
    simp only [plain, Bool.and_eq_true, decide_eq_true_eq] at h
    have hinner : levels - 1 ≤ most - 1 := by omega
    have hitems := fitsList_ofJson hinner h.2
    have hlevel : 0 < most := by omega
    simp [Datum.ofJson, Datum.fits, hlevel, hitems]
  | object fields, h => by
    simp only [plain, Bool.and_eq_true, decide_eq_true_eq] at h
    have hinner : levels - 1 ≤ most - 1 := by omega
    have hfields := fitsEntries_ofJson hinner h.2
    have hlevel : 0 < most := by omega
    simp [Datum.ofJson, Datum.fits, hlevel, hfields]

/-- So do the data of plain elements. -/
theorem fitsList_ofJson {levels most : Nat} (hmost : levels ≤ most) :
    ∀ {js : List Json}, plainList levels js = true →
      Datum.fitsList most (Datum.ofJsonList js) = true
  | [], _ => rfl
  | j :: js, h => by
    simp only [plainList, Bool.and_eq_true] at h
    simp [Datum.ofJsonList, Datum.fitsList, fits_ofJson hmost h.1, fitsList_ofJson hmost h.2]

/-- So do the data of plain fields. -/
theorem fitsEntries_ofJson {levels most : Nat} (hmost : levels ≤ most) :
    ∀ {fields : List (String × Json)}, plainFields levels fields = true →
      Datum.fitsEntries most (Datum.ofJsonFields fields) = true
  | [], _ => rfl
  | (k, j) :: rest, h => by
    simp only [plainFields, Bool.and_eq_true] at h
    simp [Datum.ofJsonFields, Datum.fitsEntries, Datum.fits, fits_ofJson hmost h.1,
      fitsEntries_ofJson hmost h.2]

end

/-! ## Texts -/

/-- The piece as which a written character is read: those that are escaped by their number are read
by it. -/
def unitOf (c : Char) : TextUnit :=
  if c.toNat < 32 ∧ c ∉ ['\n', '\r', '\t', '\x08', '\x0c'] then .code c.toNat else .char c

/-- The number of a control character is read as it was written. -/
theorem hexFour?_hexDigit :
    ∀ n < 32, hexFour? '0' '0' (Text.hexDigit (n / 16)) (Text.hexDigit (n % 16)) = some n := by
  decide

/-- A written character is read as its piece. -/
theorem readUnits?_escapedChar (c : Char) (rest : List Char) :
    readUnits? (escapedChar c ++ rest) =
      (readUnits? rest).map fun (us, rest) => (unitOf c :: us, rest) := by
  have hletter : ∀ {e d : Char}, e ≠ 'u' → escape? e = some d →
      readUnits? ('\\' :: e :: rest) =
        (readUnits? rest).map fun (us, rest) => (.char d :: us, rest) := by
    intro e d he hd
    cases hrest : readUnits? rest <;> simp [readUnits?, he, hd, hrest]
  -- Seven characters are escaped by a letter or by themselves.
  by_cases hquote : c = '"'
  · subst hquote; exact hletter (by decide) rfl
  by_cases hslash : c = '\\'
  · subst hslash; exact hletter (by decide) rfl
  by_cases hn : c = '\n'
  · subst hn; exact hletter (by decide) rfl
  by_cases hr : c = '\r'
  · subst hr; exact hletter (by decide) rfl
  by_cases ht : c = '\t'
  · subst ht; exact hletter (by decide) rfl
  by_cases hb : c = '\x08'
  · subst hb; exact hletter (by decide) rfl
  by_cases hf : c = '\x0c'
  · subst hf; exact hletter (by decide) rfl
  have hb' : c.toNat ≠ 8 := fun h => hb (Char.toNat_inj.mp h)
  have hf' : c.toNat ≠ 12 := fun h => hf (Char.toNat_inj.mp h)
  by_cases hlow : c.toNat < 32
  · -- The other control characters are escaped by their number.
    have hunit : unitOf c = .code c.toNat := by simp [unitOf, hlow, hn, hr, ht, hb, hf]
    have hhex := hexFour?_hexDigit c.toNat hlow
    cases hrest : readUnits? rest <;>
      simp [escapedChar, readUnits?, *]
  · have hunit : unitOf c = .char c := by simp [unitOf, hlow]
    cases hrest : readUnits? rest <;>
      simp [escapedChar, readUnits?, *]

/-- Pieces given by an escape that is no half of a surrogate pair stand for one character each. -/
theorem joinUnits?_code {n : Nat} (h : n < 32) (us : List TextUnit) :
    joinUnits? (.code n :: us) = (joinUnits? us).map (Char.ofNat n :: ·) := by
  have hhigh : isHighSurrogate n = false := by
    simp [isHighSurrogate]
    omega
  have hlow : isLowSurrogate n = false := by
    simp [isLowSurrogate]
    omega
  cases us with
  | nil => simp [joinUnits?, hhigh, hlow]
  | cons u us => cases u <;> simp [joinUnits?, hhigh, hlow]

/-- The pieces of characters make up these characters. -/
theorem joinUnits?_map_unitOf (cs : List Char) : joinUnits? (cs.map unitOf) = some cs := by
  induction cs with
  | nil => rfl
  | cons c cs ih =>
    rw [List.map_cons]
    by_cases h : c.toNat < 32 ∧ c ∉ ['\n', '\r', '\t', '\x08', '\x0c']
    · rw [unitOf, if_pos h, joinUnits?_code h.1, ih]
      simp
    · rw [unitOf, if_neg h, joinUnits?, ih]
      rfl

/-- A written text is read up to its closing quote. -/
theorem readText_escaped (cs rest : List Char) :
    readText (cs.flatMap escapedChar ++ '"' :: rest) = some (some cs, rest) := by
  have hunits : readUnits? (cs.flatMap escapedChar ++ '"' :: rest) =
      some (cs.map unitOf, rest) := by
    induction cs with
    | nil => rfl
    | cons c cs ih => simp [List.flatMap_cons, readUnits?_escapedChar, ih]
  simp [readText, hunits, joinUnits?_map_unitOf]

/-! ## Layouts -/

/-- Whether characters are blanks, as they may stand between the parts of a text. -/
def Blanks (bs : List Char) : Prop := ∀ b ∈ bs, b = ' ' ∨ b = '\n' ∨ b = '\r' ∨ b = '\t'

theorem blanks_nil : Blanks [] := nofun

theorem blanks_space : Blanks [' '] := by
  intro b hb
  exact .inl (List.mem_singleton.mp hb)

/-- The start of a line is blank. -/
theorem blanks_lineStart (level : Nat) : Blanks (lineStart level) := by
  intro b hb
  rcases List.mem_cons.mp hb with rfl | hb
  · exact .inr (.inl rfl)
  · exact .inl (List.mem_replicate.mp hb).2

/-- Blanks are skipped. -/
theorem skipBlanks_append {bs : List Char} (h : Blanks bs) (cs : List Char) :
    skipBlanks (bs ++ cs) = skipBlanks cs := by
  induction bs with
  | nil => rfl
  | cons b bs ih =>
    have hbs := ih fun b' hb' => h b' (.tail _ hb')
    rcases h b (.head _) with rfl | rfl | rfl | rfl <;> exact hbs

mutual

/-- The texts of a value without numbers, in any layout. -/
inductive Spells : Json → List Char → Prop where
  | null : Spells null ['n', 'u', 'l', 'l']
  | bool (b : Bool) : Spells (bool b) (boolChars b)
  | text (s : String) : Spells (text s) (textChars s)
  | emptyList {bs : List Char} (hbs : Blanks bs) : Spells (list []) ('[' :: (bs ++ [']']))
  | list {js : List Json} {bs cs : List Char} (hbs : Blanks bs) (hcs : SpellsItems js cs) :
    Spells (list js) ('[' :: (bs ++ cs))
  | emptyObject {bs : List Char} (hbs : Blanks bs) :
    Spells (object []) ('\x7b' :: (bs ++ ['\x7d']))
  | object {fields : List (String × Json)} {bs cs : List Char} (hbs : Blanks bs)
    (hcs : SpellsMembers fields cs) : Spells (object fields) ('\x7b' :: (bs ++ cs))

/-- The texts of the elements of a list, each with what ends it. -/
inductive SpellsItems : List Json → List Char → Prop where
  | last {j : Json} {cs bs : List Char} (hcs : Spells j cs) (hbs : Blanks bs) :
    SpellsItems [j] (cs ++ (bs ++ [']']))
  | more {j : Json} {js : List Json} {cs bs bs' cs' : List Char} (hcs : Spells j cs)
    (hbs : Blanks bs) (hbs' : Blanks bs') (hcs' : SpellsItems js cs') :
    SpellsItems (j :: js) (cs ++ (bs ++ ',' :: (bs' ++ cs')))

/-- The texts of the members of an object, each with what ends it. -/
inductive SpellsMembers : List (String × Json) → List Char → Prop where
  | last {k : String} {j : Json} {bs cs bs' : List Char} (hbs : Blanks bs) (hcs : Spells j cs)
    (hbs' : Blanks bs') :
    SpellsMembers [(k, j)] (textChars k ++ ':' :: (bs ++ (cs ++ (bs' ++ ['\x7d']))))
  | more {k : String} {j : Json} {fields : List (String × Json)} {bs cs bs' bs'' cs' : List Char}
    (hbs : Blanks bs) (hcs : Spells j cs) (hbs' : Blanks bs') (hbs'' : Blanks bs'')
    (hcs' : SpellsMembers fields cs') :
    SpellsMembers ((k, j) :: fields)
      (textChars k ++ ':' :: (bs ++ (cs ++ (bs' ++ ',' :: (bs'' ++ cs')))))

end

mutual

/-- A plain value on one line is a text of it. -/
theorem spells_chars : ∀ {levels : Nat} {j : Json}, j.plain levels = true → Spells j j.chars
  | _, null, _ => .null
  | _, bool b, _ => .bool b
  | _, text s, _ => .text s
  | _, list [], _ => .emptyList blanks_nil
  | _, list (j :: js), h => by
    simp only [plain, Bool.and_eq_true] at h
    exact .list blanks_nil (spells_listChars (List.cons_ne_nil j js) h.2)
  | _, object [], _ => .emptyObject blanks_nil
  | _, object (f :: fields), h => by
    simp only [plain, Bool.and_eq_true] at h
    exact .object blanks_nil (spells_objectChars (List.cons_ne_nil f fields) h.2)

/-- So are elements on one line. -/
theorem spells_listChars : ∀ {levels : Nat} {js : List Json}, js ≠ [] →
    plainList levels js = true → SpellsItems js (listChars js)
  | _, [], hne, _ => absurd rfl hne
  | _, [j], _, h => by
    simp only [plainList, Bool.and_true] at h
    exact .last (spells_chars h) blanks_nil
  | _, j :: j' :: js, _, h => by
    rw [plainList, Bool.and_eq_true] at h
    exact .more (spells_chars h.1) blanks_nil blanks_nil
      (spells_listChars (List.cons_ne_nil j' js) h.2)

/-- So are members on one line. -/
theorem spells_objectChars : ∀ {levels : Nat} {fields : List (String × Json)}, fields ≠ [] →
    plainFields levels fields = true → SpellsMembers fields (objectChars fields)
  | _, [], hne, _ => absurd rfl hne
  | _, [(k, j)], _, h => by
    simp only [plainFields, Bool.and_true] at h
    have hlast := SpellsMembers.last (k := k) blanks_nil (spells_chars h) blanks_nil
    simpa [objectChars] using hlast
  | _, (k, j) :: f :: fields, _, h => by
    rw [plainFields, Bool.and_eq_true] at h
    have hmore := SpellsMembers.more (k := k) blanks_nil (spells_chars h.1) blanks_nil blanks_nil
      (spells_objectChars (List.cons_ne_nil f fields) h.2)
    simpa [objectChars] using hmore

end

mutual

/-- A plain value over several lines is a text of it. -/
theorem spells_prettyChars : ∀ (level : Nat) {levels : Nat} {j : Json}, j.plain levels = true →
    Spells j (j.prettyChars level)
  | _, _, null, _ => .null
  | _, _, bool b, _ => .bool b
  | _, _, text s, _ => .text s
  | _, _, list [], _ => .emptyList blanks_nil
  | level, _, list (j :: js), h => by
    simp only [plain, Bool.and_eq_true] at h
    obtain ⟨cs, hcs, hspells⟩ := spells_prettyList (level + 1) (List.cons_ne_nil j js) h.2
    have hlist := Spells.list (blanks_lineStart (level + 1)) hspells
    rwa [← hcs] at hlist
  | _, _, object [], _ => .emptyObject blanks_nil
  | level, _, object (f :: fields), h => by
    simp only [plain, Bool.and_eq_true] at h
    obtain ⟨cs, hcs, hspells⟩ := spells_prettyObject (level + 1) (List.cons_ne_nil f fields) h.2
    have hobject := Spells.object (blanks_lineStart (level + 1)) hspells
    rwa [← hcs] at hobject

/-- So are elements over several lines, after the start of the first line. -/
theorem spells_prettyList : ∀ (level : Nat) {levels : Nat} {js : List Json}, js ≠ [] →
    plainList levels js = true →
      ∃ cs, prettyList level js = lineStart level ++ cs ∧ SpellsItems js cs
  | _, _, [], hne, _ => absurd rfl hne
  | level, _, [j], _, h => by
    simp only [plainList, Bool.and_true] at h
    exact ⟨_, by simp [prettyList],
      .last (spells_prettyChars level h) (blanks_lineStart (level - 1))⟩
  | level, _, j :: j' :: js, _, h => by
    rw [plainList, Bool.and_eq_true] at h
    obtain ⟨cs, hcs, hspells⟩ := spells_prettyList level (List.cons_ne_nil j' js) h.2
    exact ⟨_, by simp [prettyList, hcs],
      .more (spells_prettyChars level h.1) blanks_nil (blanks_lineStart level) hspells⟩

/-- So are members over several lines, after the start of the first line. -/
theorem spells_prettyObject : ∀ (level : Nat) {levels : Nat} {fields : List (String × Json)},
    fields ≠ [] → plainFields levels fields = true →
      ∃ cs, prettyObject level fields = lineStart level ++ cs ∧ SpellsMembers fields cs
  | _, _, [], hne, _ => absurd rfl hne
  | level, _, [(k, j)], _, h => by
    simp only [plainFields, Bool.and_true] at h
    exact ⟨_, by simp [prettyObject],
      .last blanks_space (spells_prettyChars level h) (blanks_lineStart (level - 1))⟩
  | level, _, (k, j) :: f :: fields, _, h => by
    rw [plainFields, Bool.and_eq_true] at h
    obtain ⟨cs, hcs, hspells⟩ := spells_prettyObject level (List.cons_ne_nil f fields) h.2
    exact ⟨_, by simp [prettyObject, hcs],
      .more blanks_space (spells_prettyChars level h.1) blanks_nil (blanks_lineStart level) hspells⟩

end

/-! ## Reading -/

/-- The text of a value begins with a character that is no blank and does not end a list. -/
theorem Spells.eq_cons {j : Json} {cs : List Char} (h : Spells j cs) :
    ∃ c cs', cs = c :: cs' ∧ c ≠ ']' ∧ ∀ rest, skipBlanks (c :: rest) = c :: rest := by
  cases h with
  | null => exact ⟨_, _, rfl, by decide, fun _ => rfl⟩
  | bool b => cases b <;> exact ⟨_, _, rfl, by decide, fun _ => rfl⟩
  | text s => exact ⟨_, _, rfl, by decide, fun _ => rfl⟩
  | emptyList hbs => exact ⟨_, _, rfl, by decide, fun _ => rfl⟩
  | list hbs hcs => exact ⟨_, _, rfl, by decide, fun _ => rfl⟩
  | emptyObject hbs => exact ⟨_, _, rfl, by decide, fun _ => rfl⟩
  | object hbs hcs => exact ⟨_, _, rfl, by decide, fun _ => rfl⟩

/-- There are no blanks in front of the text of a value. -/
theorem Spells.skipBlanks_append {j : Json} {cs : List Char} (h : Spells j cs)
    (rest : List Char) : skipBlanks (cs ++ rest) = cs ++ rest := by
  obtain ⟨c, cs', rfl, -, hblank⟩ := h.eq_cons
  exact hblank _

/-- The elements of a list begin with the first one. -/
theorem SpellsItems.eq_cons {js : List Json} {cs : List Char} (h : SpellsItems js cs) :
    ∃ c cs', cs = c :: cs' ∧ c ≠ ']' ∧ ∀ rest, skipBlanks (c :: rest) = c :: rest := by
  cases h with
  | last hcs hbs =>
    obtain ⟨c, cs', rfl, hend, hblank⟩ := hcs.eq_cons
    exact ⟨c, _, rfl, hend, hblank⟩
  | more hcs hbs hbs' hcs' =>
    obtain ⟨c, cs', rfl, hend, hblank⟩ := hcs.eq_cons
    exact ⟨c, _, rfl, hend, hblank⟩

/-- There are no blanks in front of the elements. -/
theorem SpellsItems.skipBlanks_append {js : List Json} {cs : List Char} (h : SpellsItems js cs)
    (rest : List Char) : skipBlanks (cs ++ rest) = cs ++ rest := by
  obtain ⟨c, cs', rfl, -, hblank⟩ := h.eq_cons
  exact hblank _

/-- The members of an object begin with the key of the first one. -/
theorem SpellsMembers.eq_cons {fields : List (String × Json)} {cs : List Char}
    (h : SpellsMembers fields cs) : ∃ cs', cs = '"' :: cs' := by
  cases h with
  | last => exact ⟨_, rfl⟩
  | more => exact ⟨_, rfl⟩

/-- There are no blanks in front of the members. -/
theorem SpellsMembers.skipBlanks_append {fields : List (String × Json)} {cs : List Char}
    (h : SpellsMembers fields cs) (rest : List Char) : skipBlanks (cs ++ rest) = cs ++ rest := by
  obtain ⟨cs', rfl⟩ := h.eq_cons
  rfl

section Grammar

variable {fuel : Nat} {cs us vs ws first next rest : List Char} {key : String} {d : Datum}

/-- A list that ends at once. -/
theorem readValue_emptyList (hend : skipBlanks cs = ']' :: rest) :
    readValue (fuel + 1) ('[' :: cs) = some (.list [], rest) := by
  simp [readValue, hend]

/-- A list that does not end at once is read by its elements. -/
theorem readValue_list {c : Char} {items : List Datum} (hfirst : skipBlanks cs = c :: vs)
    (hend : c ≠ ']') (hitems : readItems fuel (c :: vs) = some (items, rest)) :
    readValue (fuel + 1) ('[' :: cs) = some (.list items, rest) := by
  simp [readValue, hfirst, hend, hitems]

/-- An object that ends at once. -/
theorem readValue_emptyObject (hend : skipBlanks cs = '\x7d' :: rest) :
    readValue (fuel + 1) ('\x7b' :: cs) = some (.mapping [], rest) := by
  simp [readValue, hend]

/-- An object that does not end at once is read by its members. -/
theorem readValue_object {entries : List (Datum × Datum)} (hfirst : skipBlanks cs = '"' :: vs)
    (hmembers : readMembers fuel ('"' :: vs) = some (entries, rest)) :
    readValue (fuel + 1) ('\x7b' :: cs) = some (.mapping entries, rest) := by
  simp [readValue, hfirst, hmembers]

/-- The last element. -/
theorem readItems_last (hvalue : readValue fuel cs = some (d, vs))
    (hend : skipBlanks vs = ']' :: rest) : readItems (fuel + 1) cs = some ([d], rest) := by
  simp [readItems, hvalue, hend]

/-- An element before others. -/
theorem readItems_more {items : List Datum} (hvalue : readValue fuel cs = some (d, vs))
    (hend : skipBlanks vs = ',' :: ws) (hnext : skipBlanks ws = next)
    (hitems : readItems fuel next = some (items, rest)) :
    readItems (fuel + 1) cs = some (d :: items, rest) := by
  simp [readItems, hvalue, hend, hnext, hitems]

/-- The last member. -/
theorem readMembers_last (hkey : readText cs = some (some key.toList, ':' :: us))
    (hfirst : skipBlanks us = first) (hvalue : readValue fuel first = some (d, vs))
    (hend : skipBlanks vs = '\x7d' :: rest) :
    readMembers (fuel + 1) ('"' :: cs) = some ([(.text key, d)], rest) := by
  simp [readMembers, hkey, skipBlanks, hfirst, hvalue, hend, textDatum]

/-- A member before others. -/
theorem readMembers_more {entries : List (Datum × Datum)}
    (hkey : readText cs = some (some key.toList, ':' :: us)) (hfirst : skipBlanks us = first)
    (hvalue : readValue fuel first = some (d, vs)) (hend : skipBlanks vs = ',' :: ws)
    (hnext : skipBlanks ws = next) (hmembers : readMembers fuel next = some (entries, rest)) :
    readMembers (fuel + 1) ('"' :: cs) = some ((.text key, d) :: entries, rest) := by
  simp [readMembers, hkey, skipBlanks, hfirst, hvalue, hend, hnext, hmembers, textDatum]

end Grammar

/-- A key and the colon after it. -/
theorem readText_textChars (k : String) (rest : List Char) :
    ∃ cs, textChars k ++ ':' :: rest = '"' :: cs ∧
      readText cs = some (some k.toList, ':' :: rest) :=
  ⟨k.toList.flatMap escapedChar ++ '"' :: (':' :: rest), by simp [textChars],
    readText_escaped _ _⟩

mutual

/-- A text of a value is read as the value it spells, whatever follows it. -/
theorem Spells.readValue : ∀ (fuel : Nat) {j : Json} {cs : List Char}, Spells j cs →
    2 * cs.length ≤ fuel → ∀ rest,
      Json.readValue fuel (cs ++ rest) = some (Datum.ofJson j, rest)
  | 0, _, _, h, hfuel, rest => by
    obtain ⟨c, cs', rfl, -, -⟩ := h.eq_cons
    rw [List.length_cons] at hfuel
    omega
  | fuel + 1, _, _, .null, _, rest => rfl
  | fuel + 1, _, _, .bool true, _, rest => rfl
  | fuel + 1, _, _, .bool false, _, rest => rfl
  | fuel + 1, _, _, .text s, _, rest => by
    have htext := readText_escaped s.toList rest
    simp [textChars, Json.readValue, htext, textDatum, Datum.ofJson]
  | fuel + 1, _, _, .emptyList hbs, _, rest => by
    simp only [List.cons_append, List.append_assoc]
    exact readValue_emptyList (Json.skipBlanks_append hbs _)
  | fuel + 1, _, _, .list hbs hcs, hfuel, rest => by
    simp only [List.length_cons, List.length_append] at hfuel
    have hitems := hcs.readItems fuel (by omega) rest
    -- The first element is not taken for the end of the list.
    obtain ⟨c, cs', rfl, hend, hblank⟩ := hcs.eq_cons
    simp only [List.cons_append, List.append_assoc] at hitems ⊢
    exact readValue_list ((Json.skipBlanks_append hbs _).trans (hblank _)) hend hitems
  | fuel + 1, _, _, .emptyObject hbs, _, rest => by
    simp only [List.cons_append, List.append_assoc]
    exact readValue_emptyObject (Json.skipBlanks_append hbs _)
  | fuel + 1, _, _, .object hbs hcs, hfuel, rest => by
    simp only [List.length_cons, List.length_append] at hfuel
    have hmembers := hcs.readMembers fuel (by omega) rest
    obtain ⟨cs', rfl⟩ := hcs.eq_cons
    simp only [List.cons_append, List.append_assoc] at hmembers ⊢
    exact readValue_object (Json.skipBlanks_append hbs _) hmembers

/-- So are the elements of a list. -/
theorem SpellsItems.readItems : ∀ (fuel : Nat) {js : List Json} {cs : List Char},
    SpellsItems js cs → 2 * cs.length ≤ fuel → ∀ rest,
      Json.readItems fuel (cs ++ rest) = some (Datum.ofJsonList js, rest)
  | 0, _, _, h, hfuel, rest => by
    obtain ⟨c, cs', rfl, -, -⟩ := h.eq_cons
    rw [List.length_cons] at hfuel
    omega
  | fuel + 1, _, _, .last hcs hbs, hfuel, rest => by
    simp only [List.length_append, List.length_singleton] at hfuel
    rw [List.append_assoc, List.append_assoc]
    exact readItems_last (hcs.readValue fuel (by omega) _) (Json.skipBlanks_append hbs _)
  | fuel + 1, _, _, .more hcs hbs hbs' hcs', hfuel, rest => by
    simp only [List.length_append, List.length_cons] at hfuel
    simp only [List.cons_append, List.append_assoc]
    exact readItems_more (hcs.readValue fuel (by omega) _)
      (Json.skipBlanks_append hbs (',' :: _))
      ((Json.skipBlanks_append hbs' _).trans (hcs'.skipBlanks_append rest))
      (hcs'.readItems fuel (by omega) rest)

/-- So are the members of an object. -/
theorem SpellsMembers.readMembers : ∀ (fuel : Nat) {fields : List (String × Json)}
    {cs : List Char}, SpellsMembers fields cs → 2 * cs.length ≤ fuel → ∀ rest,
      Json.readMembers fuel (cs ++ rest) = some (Datum.ofJsonFields fields, rest)
  | 0, _, _, h, hfuel, rest => by
    obtain ⟨cs', rfl⟩ := h.eq_cons
    rw [List.length_cons] at hfuel
    omega
  | fuel + 1, _, _, .last hbs hcs hbs', hfuel, rest => by
    simp only [List.length_append, List.length_cons] at hfuel
    simp only [List.cons_append, List.append_assoc]
    obtain ⟨cs, hcons, hkey⟩ := readText_textChars _ _
    rw [hcons]
    exact readMembers_last hkey
      ((Json.skipBlanks_append hbs _).trans (hcs.skipBlanks_append _))
      (hcs.readValue fuel (by omega) _) (Json.skipBlanks_append hbs' ('\x7d' :: rest))
  | fuel + 1, _, _, .more hbs hcs hbs' hbs'' hcs', hfuel, rest => by
    simp only [List.length_append, List.length_cons] at hfuel
    simp only [List.cons_append, List.append_assoc]
    obtain ⟨cs, hcons, hkey⟩ := readText_textChars _ _
    rw [hcons]
    exact readMembers_more hkey
      ((Json.skipBlanks_append hbs _).trans (hcs.skipBlanks_append _))
      (hcs.readValue fuel (by omega) _) (Json.skipBlanks_append hbs' (',' :: _))
      ((Json.skipBlanks_append hbs'' _).trans (hcs'.skipBlanks_append rest))
      (hcs'.readMembers fuel (by omega) rest)

end

/-- A text of a value is read as the value it spells. -/
theorem Spells.read? {j : Json} {cs : List Char} (h : Spells j cs) :
    Json.read? (String.ofList cs) = some (Datum.ofJson j) := by
  have hblank := h.skipBlanks_append []
  have hvalue := h.readValue (2 * cs.length + 2) (by omega) []
  rw [List.append_nil] at hblank hvalue
  unfold Json.read? readChars?
  rw [String.toList_ofList, hblank, hvalue]
  rfl

/-- The text of a plain value on one line is read as its datum. -/
theorem read?_render {levels : Nat} {j : Json} (h : j.plain levels = true) :
    read? j.render = some (Datum.ofJson j) :=
  (spells_chars h).read?

/-- So is its text over several lines. -/
theorem read?_renderPretty {levels : Nat} {j : Json} (h : j.plain levels = true) :
    read? j.renderPretty = some (Datum.ofJson j) :=
  (spells_prettyChars 0 h).read?

end Workflow.Json
