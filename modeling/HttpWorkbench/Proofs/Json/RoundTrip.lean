import HttpWorkbench.Proofs.Json.Strings
import HttpWorkbench.Proofs.Result

/-!
# Documents are read back

A value that a document can hold is written, indented, as a text that is read as the same value. The
text is read in front of whatever may follow it there, so that the parts of lists and objects are read
one after the other. Two units of fuel for each character are enough, and no more lists and objects
are open than the value nests.
-/

namespace HttpWorkbench.Json

/-- A value that a document can hold, in which lists and objects nest at most so deep: texts have no
halves, integers have at most 4300 digits, and the names of an object are distinct. -/
inductive IsDocument : Nat → Value → Prop
  | null {depth : Nat} : IsDocument depth .null
  | bool {depth : Nat} {b : Bool} : IsDocument depth (.bool b)
  | int {depth : Nat} {n : Int} (h : (natText n.natAbs).length ≤ 4300) : IsDocument depth (.int n)
  | float {depth : Nat} {x : Binary64} (h : ∀ k, x ≠ .nan (.given k)) : IsDocument depth (.float x)
  | str {depth : Nat} {s : Text} (h : ∀ c ∈ s, c.isHalf = false) : IsDocument depth (.str s)
  | list {depth : Nat} {xs : List Value} (h : ∀ x ∈ xs, IsDocument depth x) :
      IsDocument (depth + 1) (.list xs)
  | map {depth : Nat} {fields : List (Text × Value)} (hdistinct : (fields.map Prod.fst).Nodup)
      (hnames : ∀ f ∈ fields, ∀ c ∈ f.1, c.isHalf = false)
      (h : ∀ f ∈ fields, IsDocument depth f.2) : IsDocument (depth + 1) (.ofFields fields)

/-- A value that nests at most so deep nests at most deeper. -/
theorem IsDocument.mono {d d' : Nat} {v : Value} (h : IsDocument d v) (hd : d ≤ d') :
    IsDocument d' v := by
  induction h generalizing d' with
  | null => exact .null
  | bool => exact .bool
  | int h => exact .int h
  | float h => exact .float h
  | str h => exact .str h
  | list _ ih =>
    obtain ⟨k, rfl⟩ : ∃ k, d' = k + 1 := ⟨d' - 1, by omega⟩
    exact .list fun x hx => ih x hx (by omega)
  | map hdistinct hnames _ ih =>
    obtain ⟨k, rfl⟩ : ∃ k, d' = k + 1 := ⟨d' - 1, by omega⟩
    exact .map hdistinct hnames fun f hf => ih f hf (by omega)

/-- An object without entries. -/
theorem IsDocument.noFields {depth : Nat} : IsDocument (depth + 1) (.map []) := by
  have h : IsDocument (depth + 1) (.ofFields []) := .map List.nodup_nil (List.forall_mem_nil _) (List.forall_mem_nil _)
  exact h

/-- A list without items. -/
theorem IsDocument.noItems {depth : Nat} : IsDocument (depth + 1) (.list []) :=
  .list (List.forall_mem_nil _)

/-- Names that an object can have. -/
def AreNames (names : List Text) : Prop := names.Nodup ∧ ∀ name ∈ names, ∀ c ∈ name, c.isHalf = false

instance (names : List Text) : Decidable (AreNames names) := inferInstanceAs (Decidable (_ ∧ _))

/-- An object with such names is a document if its parts are. -/
theorem IsDocument.named {depth : Nat} {fields : List (Text × Value)}
    (hnames : AreNames (fields.map Prod.fst)) (h : ∀ f ∈ fields, IsDocument depth f.2) :
    IsDocument (depth + 1) (.ofFields fields) :=
  .map hnames.1 (fun f hf => hnames.2 f.1 (List.mem_map_of_mem hf)) h

/-! ## Values that hold no others -/

theorem isClean_intText (n : Int) : IsClean (intText n) := by
  have hdigits : IsClean (natText n.natAbs) := .of_digits fun _ => isDigit_of_mem_natText
  rw [intText]
  split
  · exact .cons (by decide) hdigits
  · exact hdigits

theorem Numeral.isClean_text (t : Numeral) : IsClean t.text := by
  have hfraction : IsClean (fractionText t.fraction) := by
    rw [fractionText]
    split
    · exact .nil
    · exact .cons (by decide) (.of_digits t.isFraction)
  have hexponent : IsClean (exponentText? t.exponent) := by
    cases t.exponent with
    | none => exact .nil
    | some e =>
      refine .cons (by decide) (.cons ?_ (.of_digits fun c hc => ?_))
      · split <;> decide
      · exact (List.mem_append.mp hc).elim isDigit_of_mem_zeros isDigit_of_mem_natText
  exact (IsClean.of_digits t.isWhole.isDigits.2).append (hfraction.append hexponent)

theorem isClean_floatText (x : Binary64) : IsClean (floatText x) := by
  have hsign (negative : Bool) {text : Text} (h : IsClean text) :
      IsClean (Binary64.withSign negative text) := by
    cases negative with
    | false => exact h
    | true => exact .cons (by decide) h
  cases x with
  | nan _ => exact (by decide : IsClean "NaN")
  | infinite negative => exact hsign negative (by decide : IsClean "Infinity")
  | finite negative m e h =>
    refine hsign negative ?_
    split
    · decide
    · rename_i hm
      obtain ⟨t, htext, -⟩ := exists_numeral (coefficient_shortest h hm)
      rw [← htext]
      exact t.isClean_text

/-- What a word or a number begins with. -/
def BeginsScalar (cs : Text) : Prop :=
  ∃ c rest, cs = c :: rest ∧ (isDigit c = true ∨ c ∈ ("-ntfNI" : Text))

theorem BeginsScalar.append {a : Text} (h : BeginsScalar a) (b : Text) : BeginsScalar (a ++ b) := by
  obtain ⟨c, rest, rfl, hc⟩ := h
  exact ⟨c, rest ++ b, rfl, hc⟩

theorem beginsScalar_withSign (negative : Bool) {text : Text} (h : BeginsScalar text) :
    BeginsScalar (Binary64.withSign negative text) := by
  cases negative with
  | false => exact h
  | true => exact ⟨_, _, rfl, .inr (by decide)⟩

theorem IsDigits.beginsScalar {ds : Text} (h : IsDigits ds) : BeginsScalar ds := by
  cases ds with
  | nil => exact absurd rfl h.1
  | cons c ds => exact ⟨c, ds, rfl, .inl (h.2 c List.mem_cons_self)⟩

theorem beginsScalar_intText (n : Int) : BeginsScalar (intText n) := by
  have hdigits := (isDigits_natText n.natAbs).beginsScalar
  rw [intText]
  split
  · exact ⟨_, _, rfl, .inr (by decide)⟩
  · exact hdigits

theorem beginsScalar_floatText (x : Binary64) : BeginsScalar (floatText x) := by
  cases x with
  | nan _ => exact ⟨_, _, rfl, .inr (by decide)⟩
  | infinite negative => exact beginsScalar_withSign negative ⟨_, _, rfl, .inr (by decide)⟩
  | finite negative m e h =>
    refine beginsScalar_withSign negative ?_
    split
    · exact ⟨_, _, rfl, .inl rfl⟩
    · rename_i hm
      obtain ⟨t, htext, -⟩ := exists_numeral (coefficient_shortest h hm)
      rw [← htext]
      exact t.isWhole.isDigits.beginsScalar.append _

/-- What begins a word or a number begins nothing else, and is passed over by nothing. -/
theorem ne_of_beginsScalar {c : CodePoint} (h : isDigit c = true ∨ c ∈ ("-ntfNI" : Text)) :
    c ≠ '"' ∧ c ≠ '\x7b' ∧ c ≠ '[' ∧ isSpace c = false ∧ c ≠ '\uFEFF' ∧ c ≠ ']' := by
  rcases h with h | h
  · have hne {d : CodePoint} (hd : isDigit d = false) : c ≠ d := by
      rintro rfl
      rw [hd] at h
      cases h
    refine ⟨hne rfl, hne rfl, hne rfl, ?_, hne (by decide), hne rfl⟩
    simp [isSpace, hne (d := ' ') rfl, hne (d := '\t') rfl, hne (d := '\n') rfl, hne (d := '\r') rfl]
  · revert c
    decide

/-- What is read where no string, list or object begins. -/
theorem readValue_scalar {cs : Text} (h : BeginsScalar cs) (fuel depth : Nat) :
    readValue (fuel + 1) depth cs = readScalar cs := by
  obtain ⟨c, rest, rfl, hc⟩ := h
  obtain ⟨hquote, hbrace, hbracket, -⟩ := ne_of_beginsScalar hc
  unfold readValue
  split
  · rename_i heq
    exact absurd (List.cons.inj heq).1 hquote
  · rename_i heq
    exact absurd (List.cons.inj heq).1 hbrace
  · rename_i heq
    exact absurd (List.cons.inj heq).1 hbracket
  · rfl

/-! ## Values in front of a text -/

/-- The text of a value: it goes through a file unchanged, begins with something that is not passed
over, and is read as the value in front of whatever ends it. -/
structure IsWritten (depth : Nat) (v : Value) (text : Text) : Prop where
  clean : IsClean text
  begins : ∃ c rest, text = c :: rest ∧ isSpace c = false ∧ c ≠ '\uFEFF' ∧ c ≠ ']'
  read : ∀ (fuel : Nat) (rest : Text), 2 * text.length ≤ fuel → Ends rest →
    readValue fuel depth (text ++ rest) = .ok (v, rest)

theorem IsWritten.of_scalar {v : Value} {text : Text} (depth : Nat) (hclean : IsClean text)
    (hbegins : BeginsScalar text)
    (hread : ∀ rest, Ends rest → readScalar (text ++ rest) = .ok (v, rest)) :
    IsWritten depth v text where
  clean := hclean
  begins := by
    obtain ⟨c, rest, htext, hc⟩ := hbegins
    exact ⟨c, rest, htext, (ne_of_beginsScalar hc).2.2.2⟩
  read := by
    intro fuel rest hfuel hrest
    obtain ⟨c, more, htext, -⟩ := id hbegins
    obtain ⟨fuel, rfl⟩ : ∃ k, fuel = k + 1 :=
      ⟨fuel - 1, by rw [htext, List.length_cons] at hfuel; omega⟩
    rw [readValue_scalar (hbegins.append rest), hread rest hrest]

theorem isWritten_word (depth : Nat) {v : Value} {word : Text} (hclean : IsClean word)
    (hbegins : BeginsScalar word)
    (hword : ∀ rest, words.find? (fun w => w.1.isPrefixOf (word ++ rest)) = some (word, v)) :
    IsWritten depth v word := by
  refine .of_scalar depth hclean hbegins fun rest _ => ?_
  rw [readScalar, hword]
  simp only [List.drop_left]

theorem isWritten_str (depth : Nat) {s : Text} (hs : ∀ c ∈ s, c.isHalf = false) :
    IsWritten depth (.str s) (writeString false s) := by
  obtain ⟨body, htext, hclean, hread⟩ := exists_writeString hs
  refine ⟨hclean, ⟨_, body, htext, by decide⟩, fun fuel rest hfuel _ => ?_⟩
  obtain ⟨fuel, rfl⟩ : ∃ k, fuel = k + 1 :=
    ⟨fuel - 1, by rw [htext, List.length_cons] at hfuel; omega⟩
  rw [htext, List.cons_append, readValue, hread]
  rfl

theorem skipSpace_of_begins {cs : Text} (h : ∃ c rest, cs = c :: rest ∧ isSpace c = false) :
    skipSpace cs = cs := by
  obtain ⟨c, rest, rfl, hc⟩ := h
  rw [skipSpace, List.dropWhile_cons_of_neg (by simp [hc])]

theorem IsWritten.skipSpace_append {depth : Nat} {v : Value} {text : Text}
    (h : IsWritten depth v text) (cs : Text) : skipSpace (text ++ cs) = text ++ cs := by
  obtain ⟨c, rest, rfl, hc, -⟩ := h.begins
  exact skipSpace_of_begins ⟨c, rest ++ cs, rfl, hc⟩

/-- The line end and the indentation at a level are passed over. -/
theorem skipSpace_newline (level : Nat) (cs : Text) :
    skipSpace (Layout.file.newline level ++ cs) = skipSpace cs := by
  rw [skipSpace, List.dropWhile_append_of_pos]
  · rfl
  · intro c hc
    rcases List.mem_cons.mp hc with rfl | hc
    · rfl
    · rw [List.eq_of_mem_replicate hc]
      rfl

theorem ends_newline (level : Nat) (cs : Text) : Ends (Layout.file.newline level ++ cs) := by
  intro c hc
  obtain rfl : CodePoint.char '\n' = c := Option.some.inj hc
  decide

theorem ends_comma (cs : Text) : Ends (.char ',' :: cs) := by
  intro c hc
  obtain rfl : CodePoint.char ',' = c := Option.some.inj hc
  decide

/-! ## Lists and objects -/

/-- The texts of further items or members, each after a comma. -/
def furtherTexts {α : Type} (level : Nat) (f : α → Text) (xs : List α) : Text :=
  xs.flatMap fun x => Layout.file.comma level ++ f x

theorem furtherTexts_cons {α : Type} (level : Nat) (f : α → Text) (x : α) (xs : List α)
    (rest : Text) : furtherTexts level f (x :: xs) ++ rest =
      .char ',' :: (Layout.file.newline level ++ (f x ++ (furtherTexts level f xs ++ rest))) := by
  simp only [furtherTexts, List.flatMap_cons, List.append_assoc]
  rfl

theorem isClean_furtherTexts {α : Type} (level : Nat) {f : α → Text} {xs : List α}
    (hf : ∀ x ∈ xs, IsClean (f x)) : IsClean (furtherTexts level f xs) :=
  .flatMap fun x hx => (isClean_comma level).append (hf x hx)

section Items

variable {depth level fuel : Nat} {v : Value} {cs rest : Text}

/-- The last item of a list. -/
theorem readItems_last
    (hread : readValue fuel depth cs = .ok (v, Layout.file.newline level ++ .char ']' :: rest)) :
    readItems (fuel + 1) depth cs = .ok ([v], rest) := by
  rw [readItems, hread, ok_bind]
  simp only [skipSpace_newline]
  rfl

/-- An item of a list with others after it. -/
theorem readItems_more {more : Text} {vs : List Value} (hmore : skipSpace more = more)
    (hread : readValue fuel depth cs =
      .ok (v, .char ',' :: (Layout.file.newline level ++ more)))
    (hothers : readItems fuel depth more = .ok (vs, rest)) :
    readItems (fuel + 1) depth cs = .ok (v :: vs, rest) := by
  have hcomma : skipSpace (.char ',' :: (Layout.file.newline level ++ more)) =
      .char ',' :: (Layout.file.newline level ++ more) := rfl
  rw [readItems, hread, ok_bind]
  simp only [hcomma, skipSpace_newline, hmore, hothers, ok_bind]

/-- The items of a list are read one after the other, up to the closing bracket. -/
theorem readItems_eq (level : Nat) {f : Value → Text} {x : Value} {xs : List Value}
    (hf : ∀ y ∈ x :: xs, IsWritten depth y (f y))
    (hfuel : 2 * (f x ++ furtherTexts (level + 1) f xs).length < fuel) :
    readItems fuel depth (f x ++ (furtherTexts (level + 1) f xs ++
      (Layout.file.newline level ++ .char ']' :: rest))) = .ok (x :: xs, rest) := by
  obtain ⟨fuel, rfl⟩ : ∃ k, fuel = k + 1 := ⟨fuel - 1, by omega⟩
  have hx := hf x List.mem_cons_self
  rw [List.length_append] at hfuel
  -- Each further item takes a unit of fuel of its own, and the comma before it brings two.
  induction xs generalizing x fuel with
  | nil => exact readItems_last (hx.read fuel _ (by omega) (ends_newline level _))
  | cons y xs ih =>
    have hy := hf y (List.mem_cons_of_mem x List.mem_cons_self)
    have hlength := congrArg List.length (furtherTexts_cons (level + 1) f y xs [])
    simp only [List.append_nil, List.length_cons, List.length_append] at hlength
    rw [furtherTexts_cons]
    obtain ⟨fuel, rfl⟩ : ∃ k, fuel = k + 1 := ⟨fuel - 1, by omega⟩
    exact readItems_more (hy.skipSpace_append _) (hx.read _ _ (by omega) (ends_comma _))
      (ih (fun z hz => hf z (List.mem_cons_of_mem x hz)) fuel (by omega) hy)

end Items

section Members

variable {depth level fuel : Nat} {name : Text} {v : Value} {cs rest : Text}

/-- The text of a member: its name, and the text of its value after a colon. -/
def memberText (f : Text × Value → Text) (e : Text × Value) : Text :=
  writeString false e.1 ++ (": " ++ f e)

/-- The last member of an object. -/
theorem readMembers_last (hname : ∀ c ∈ name, c.isHalf = false) (hcs : skipSpace cs = cs)
    (hread : readValue fuel depth cs = .ok (v, Layout.file.newline level ++ .char '\x7d' :: rest)) :
    readMembers (fuel + 1) depth (writeString false name ++ (": " ++ cs)) =
      .ok ([(.str name, v)], rest) := by
  obtain ⟨body, htext, -, hbody⟩ := exists_writeString hname
  have hcolon : skipSpace (": " ++ cs) = .char ':' :: .char ' ' :: cs := rfl
  have hblank : skipSpace (.char ' ' :: cs) = cs := hcs
  rw [htext, List.cons_append, readMembers, hbody, ok_bind]
  simp only [hcolon, hblank, hread, ok_bind, skipSpace_newline]
  rfl

/-- A member of an object with others after it. -/
theorem readMembers_more (hname : ∀ c ∈ name, c.isHalf = false) (hcs : skipSpace cs = cs)
    {more : Text} {es : List (Value × Value)} (hmore : skipSpace more = more)
    (hread : readValue fuel depth cs =
      .ok (v, .char ',' :: (Layout.file.newline level ++ more)))
    (hothers : readMembers fuel depth more = .ok (es, rest)) :
    readMembers (fuel + 1) depth (writeString false name ++ (": " ++ cs)) =
      .ok ((.str name, v) :: es, rest) := by
  obtain ⟨body, htext, -, hbody⟩ := exists_writeString hname
  have hcolon : skipSpace (": " ++ cs) = .char ':' :: .char ' ' :: cs := rfl
  have hblank : skipSpace (.char ' ' :: cs) = cs := hcs
  have hcomma : skipSpace (.char ',' :: (Layout.file.newline level ++ more)) =
      .char ',' :: (Layout.file.newline level ++ more) := rfl
  rw [htext, List.cons_append, readMembers, hbody, ok_bind]
  simp only [hcolon, hblank, hread, ok_bind, hcomma, skipSpace_newline, hmore, hothers]

/-- The members of an object are read one after the other, up to the closing brace. -/
theorem readMembers_eq (level : Nat) {f : Text × Value → Text} {e : Text × Value}
    {es : List (Text × Value)}
    (hnames : ∀ d ∈ e :: es, ∀ c ∈ d.1, c.isHalf = false)
    (hf : ∀ d ∈ e :: es, IsWritten depth d.2 (f d))
    (hfuel : 2 * (memberText f e ++ furtherTexts (level + 1) (memberText f) es).length < fuel) :
    readMembers fuel depth (memberText f e ++ (furtherTexts (level + 1) (memberText f) es ++
      (Layout.file.newline level ++ .char '\x7d' :: rest))) =
        .ok ((e :: es).map fun d => (.str d.1, d.2), rest) := by
  obtain ⟨fuel, rfl⟩ : ∃ k, fuel = k + 1 := ⟨fuel - 1, by omega⟩
  have he := hf e List.mem_cons_self
  have hename := hnames e List.mem_cons_self
  have hcolon : List.length (": " : Text) = 2 := rfl
  rw [List.length_append, memberText, List.length_append, List.length_append, hcolon] at hfuel
  rw [memberText, List.append_assoc, List.append_assoc]
  induction es generalizing e fuel with
  | nil =>
    exact readMembers_last hename (he.skipSpace_append _)
      (he.read fuel _ (by omega) (ends_newline level _))
  | cons d es ih =>
    have hd := hf d (List.mem_cons_of_mem e List.mem_cons_self)
    have hlength := congrArg List.length (furtherTexts_cons (level + 1) (memberText f) d es [])
    simp only [List.append_nil, List.length_cons, List.length_append, memberText, hcolon] at hlength
    rw [furtherTexts_cons, memberText, List.append_assoc, List.append_assoc]
    obtain ⟨fuel, rfl⟩ : ∃ k, fuel = k + 1 := ⟨fuel - 1, by omega⟩
    exact readMembers_more hename (he.skipSpace_append _) rfl (he.read _ _ (by omega) (ends_comma _))
      (ih (fun a ha => hnames a (List.mem_cons_of_mem e ha))
        (fun a ha => hf a (List.mem_cons_of_mem e ha)) fuel (by omega) hd
        (hnames d (List.mem_cons_of_mem e List.mem_cons_self)))

end Members

/-! ## Documents -/

/-- A value is written as a text after whatever leads to it. -/
def IsWrittenAs (level : Nat) (v : Value) (text : Text) : Prop :=
  ∀ lead, IsClean lead → writeValue .file level lead v = ⟨lead ++ text, none⟩

theorem writeValue_scalar {level : Nat} {v : Value} {text : Text} (hclean : IsClean text)
    (h : ∀ lead, writeValue .file level lead v = .piece (lead ++ text)) :
    IsWrittenAs level v text := by
  intro lead hlead
  rw [h, (hlead.append hclean).piece]

theorem writeItems_eq {level : Nat} {f : Value → Text} {xs : List Value}
    (hwrite : ∀ x ∈ xs, IsWrittenAs level x (f x)) :
    writeItems .file level xs = ⟨furtherTexts level f xs, none⟩ := by
  induction xs with
  | nil => rfl
  | cons x xs ih =>
    rw [writeItems, hwrite x List.mem_cons_self _ (isClean_comma level),
      ih fun y hy => hwrite y (List.mem_cons_of_mem x hy), Output.append_mk]
    rfl

theorem writeEntry_eq {level : Nat} {f : Text × Value → Text} {e : Text × Value} {separator : Text}
    (hseparator : IsClean separator) (hname : ∀ c ∈ e.1, c.isHalf = false)
    (hwrite : IsWrittenAs level e.2 (f e)) :
    writeEntry .file level separator (.str e.1, e.2) = ⟨separator ++ memberText f e, none⟩ := by
  obtain ⟨body, -, hclean, -⟩ := exists_writeString hname
  have hcolon : Output.piece ": " = ⟨": ", none⟩ := rfl
  have hvalue : writeValue .file level "" e.2 = ⟨f e, none⟩ := hwrite "" .nil
  rw [writeEntry]
  simp only [keyName?, hseparator.piece, hcolon, hvalue, show Layout.file.ascii = false from rfl,
    hclean.piece, Output.append_mk, List.append_assoc, memberText]

theorem writeEntries_eq {level : Nat} {f : Text × Value → Text} {es : List (Text × Value)}
    (hnames : ∀ e ∈ es, ∀ c ∈ e.1, c.isHalf = false)
    (hwrite : ∀ e ∈ es, IsWrittenAs level e.2 (f e)) :
    writeEntries .file level (es.map fun e => (.str e.1, e.2)) =
      ⟨furtherTexts level (memberText f) es, none⟩ := by
  induction es with
  | nil => rfl
  | cons e es ih =>
    rw [List.map_cons, writeEntries, writeEntry_eq (isClean_comma level)
      (hnames e List.mem_cons_self) (hwrite e List.mem_cons_self),
      ih (fun d hd => hnames d (List.mem_cons_of_mem e hd))
        (fun d hd => hwrite d (List.mem_cons_of_mem e hd)), Output.append_mk]
    rfl

/-- The text of a list that is not empty. -/
theorem isWrittenAs_list {level : Nat} {f : Value → Text} {x : Value} {xs : List Value}
    (hwrite : ∀ y ∈ x :: xs, IsWrittenAs (level + 1) y (f y)) :
    IsWrittenAs level (.list (x :: xs)) (.char '[' :: (Layout.file.newline (level + 1) ++
      (f x ++ (furtherTexts (level + 1) f xs ++ (Layout.file.newline level ++ [.char ']']))))) := by
  intro lead hlead
  have hopen : IsClean ("[" ++ Layout.file.newline (level + 1)) :=
    .append (by decide) (isClean_newline _)
  have hclose : IsClean (Layout.file.newline level ++ "]") :=
    (isClean_newline _).append (by decide)
  have hx := hwrite x List.mem_cons_self _ hopen
  have hxs := writeItems_eq fun y hy => hwrite y (List.mem_cons_of_mem x hy)
  rw [writeValue, hlead.piece, hx, hxs, hclose.piece]
  simp only [Output.append_mk, List.append_assoc]
  rfl

/-- The text of an object that is not empty. -/
theorem isWrittenAs_ofFields {level : Nat} {f : Text × Value → Text} {e : Text × Value}
    {es : List (Text × Value)} (hnames : ∀ d ∈ e :: es, ∀ c ∈ d.1, c.isHalf = false)
    (hwrite : ∀ d ∈ e :: es, IsWrittenAs (level + 1) d.2 (f d)) :
    IsWrittenAs level (.ofFields (e :: es)) (.char '\x7b' :: (Layout.file.newline (level + 1) ++
      (memberText f e ++ (furtherTexts (level + 1) (memberText f) es ++
        (Layout.file.newline level ++ [.char '\x7d']))))) := by
  intro lead hlead
  have hopen : IsClean ("\x7b" ++ Layout.file.newline (level + 1)) :=
    .append (by decide) (isClean_newline _)
  have hclose : IsClean (Layout.file.newline level ++ "\x7d") :=
    (isClean_newline _).append (by decide)
  have hnothing : IsClean "" := .nil
  have he := writeEntry_eq hnothing (hnames e List.mem_cons_self) (hwrite e List.mem_cons_self)
  have hes := writeEntries_eq (fun d hd => hnames d (List.mem_cons_of_mem e hd))
    fun d hd => hwrite d (List.mem_cons_of_mem e hd)
  rw [Value.ofFields, List.map_cons, writeValue, hlead.piece, hopen.piece, he, hes, hclose.piece]
  simp only [Output.append_mk, List.append_assoc]
  rfl

section Values

variable {depth level fuel : Nat} {cs more rest : Text}

/-- A list that is not empty is read as its items. -/
theorem readValue_list {items : List Value} (hcs : skipSpace cs = more)
    (hmore : more.head? ≠ some (.char ']')) (hread : readItems fuel depth more = .ok (items, rest)) :
    readValue (fuel + 1) (depth + 1) (.char '[' :: cs) = .ok (.list items, rest) := by
  conv => lhs; unfold readValue
  simp only [hcs]
  split
  · rename_i h
    cases h
  · exact absurd rfl hmore
  · rename_i h _
    cases h
    rw [hread]
    rfl

/-- An object that is not empty is read as its members. -/
theorem readValue_map {members : List (Value × Value)} (hcs : skipSpace cs = more)
    (hmore : more.head? ≠ some (.char '\x7d'))
    (hread : readMembers fuel depth more = .ok (members, rest)) :
    readValue (fuel + 1) (depth + 1) (.char '\x7b' :: cs) =
      .ok (.map (Assoc.ofList members), rest) := by
  conv => lhs; unfold readValue
  simp only [hcs]
  split
  · rename_i h
    cases h
  · exact absurd rfl hmore
  · rename_i h _
    cases h
    rw [hread]
    rfl

theorem isWritten_emptyList : IsWritten (depth + 1) (.list []) "[]" where
  clean := by decide
  begins := ⟨_, _, rfl, by decide⟩
  read := by
    intro fuel rest hfuel _
    obtain ⟨fuel, rfl⟩ : ∃ k, fuel = k + 1 := ⟨fuel - 1, by have : 2 * 2 ≤ fuel := hfuel; omega⟩
    rfl

theorem isWritten_emptyMap : IsWritten (depth + 1) (.map []) "\x7b\x7d" where
  clean := by decide
  begins := ⟨_, _, rfl, by decide⟩
  read := by
    intro fuel rest hfuel _
    obtain ⟨fuel, rfl⟩ : ∃ k, fuel = k + 1 := ⟨fuel - 1, by have : 2 * 2 ≤ fuel := hfuel; omega⟩
    rfl

/-- The text of a list that is not empty. -/
theorem isWritten_list (level : Nat) {f : Value → Text} {x : Value} {xs : List Value}
    (hf : ∀ y ∈ x :: xs, IsWritten depth y (f y)) :
    IsWritten (depth + 1) (.list (x :: xs)) (.char '[' :: (Layout.file.newline (level + 1) ++
      (f x ++ (furtherTexts (level + 1) f xs ++ (Layout.file.newline level ++ [.char ']']))))) where
  clean := by
    have hx := hf x List.mem_cons_self
    refine .cons (by decide) ((isClean_newline _).append (hx.clean.append
      ((isClean_furtherTexts _ fun y hy => ?_).append ((isClean_newline _).append (by decide)))))
    exact (hf y (List.mem_cons_of_mem x hy)).clean
  begins := ⟨_, _, rfl, by decide⟩
  read := by
    intro fuel rest hfuel _
    have hx := hf x List.mem_cons_self
    simp only [List.length_cons, List.length_append] at hfuel
    obtain ⟨fuel, rfl⟩ : ∃ k, fuel = k + 1 := ⟨fuel - 1, by omega⟩
    simp only [List.cons_append, List.append_assoc, List.nil_append]
    refine readValue_list ?_ ?_ (readItems_eq level hf (by rw [List.length_append]; omega))
    · rw [skipSpace_newline, hx.skipSpace_append]
    · obtain ⟨c, more, htext, -, -, hc⟩ := hx.begins
      rw [htext]
      exact fun h => hc (Option.some.inj h)

/-- The text of an object that is not empty. -/
theorem isWritten_ofFields (level : Nat) {f : Text × Value → Text} {e : Text × Value}
    {es : List (Text × Value)}
    (hdistinct : ((e :: es).map Prod.fst).Nodup)
    (hnames : ∀ d ∈ e :: es, ∀ c ∈ d.1, c.isHalf = false)
    (hf : ∀ d ∈ e :: es, IsWritten depth d.2 (f d)) :
    IsWritten (depth + 1) (.ofFields (e :: es)) (.char '\x7b' :: (Layout.file.newline (level + 1) ++
      (memberText f e ++ (furtherTexts (level + 1) (memberText f) es ++
        (Layout.file.newline level ++ [.char '\x7d']))))) where
  clean := by
    have hmember (d : Text × Value) (hd : d ∈ e :: es) : IsClean (memberText f d) := by
      obtain ⟨_, -, hname, -⟩ := exists_writeString (hnames d hd)
      exact hname.append (.append (by decide) (hf d hd).clean)
    exact .cons (by decide) ((isClean_newline _).append ((hmember e List.mem_cons_self).append
      ((isClean_furtherTexts _ fun d hd => hmember d (List.mem_cons_of_mem e hd)).append
        ((isClean_newline _).append (by decide)))))
  begins := ⟨_, _, rfl, by decide⟩
  read := by
    intro fuel rest hfuel _
    simp only [List.length_cons, List.length_append] at hfuel
    obtain ⟨fuel, rfl⟩ : ∃ k, fuel = k + 1 := ⟨fuel - 1, by omega⟩
    simp only [List.cons_append, List.append_assoc, List.nil_append]
    have hpairs : ((e :: es).map fun d => ((.str d.1, d.2) : Value × Value)).Pairwise
        fun p q => (p.1 == q.1) = false := by
      rw [List.pairwise_map]
      exact (List.pairwise_map.mp hdistinct).imp fun h => beq_eq_false_iff_ne.mpr h
    rw [Value.ofFields, ← Assoc.ofList_of_distinct hpairs]
    refine readValue_map ?_ ?_ (readMembers_eq level hnames hf (by rw [List.length_append]; omega))
    · rw [skipSpace_newline]
      rfl
    · exact (by decide : some (CodePoint.char '"') ≠ some (.char '\x7d'))

end Values

/-- A value that a document can hold is written as a text that is read as the value. -/
theorem IsDocument.exists_text {depth : Nat} {v : Value} (h : IsDocument depth v) (level : Nat) :
    ∃ text, IsWritten depth v text ∧ IsWrittenAs level v text := by
  -- The level is free: parts are written one level further in, wherever the value stands.
  induction h generalizing level with
  | null =>
    exact ⟨_, isWritten_word _ (by decide) ⟨_, _, rfl, by decide⟩ fun _ => rfl,
      writeValue_scalar (by decide) fun _ => rfl⟩
  | @bool _ b =>
    cases b with
    | false | true =>
      exact ⟨_, isWritten_word _ (by decide) ⟨_, _, rfl, by decide⟩ fun _ => rfl,
        writeValue_scalar (by decide) fun _ => rfl⟩
  | int h =>
    exact ⟨_, .of_scalar _ (isClean_intText _) (beginsScalar_intText _) fun _ =>
      readScalar_intText h, writeValue_scalar (isClean_intText _) fun _ => rfl⟩
  | float h =>
    exact ⟨_, .of_scalar _ (isClean_floatText _) (beginsScalar_floatText _) fun _ =>
      readScalar_floatText h, writeValue_scalar (isClean_floatText _) fun _ => rfl⟩
  | str h =>
    obtain ⟨_, -, hclean, -⟩ := exists_writeString h
    exact ⟨_, isWritten_str _ h, writeValue_scalar hclean fun _ => rfl⟩
  | @list depth xs _ ih =>
    choose! f hwritten hwrite using fun x hx => ih x hx (level + 1)
    cases xs with
    | nil =>
      refine ⟨_, isWritten_emptyList, fun lead hlead => ?_⟩
      rw [writeValue, hlead.piece]
      rfl
    | cons x xs => exact ⟨_, isWritten_list level hwritten, isWrittenAs_list hwrite⟩
  | @map depth fields hdistinct hnames _ ih =>
    choose! f hwritten hwrite using fun e he => ih e he (level + 1)
    cases fields with
    | nil =>
      refine ⟨_, isWritten_emptyMap, fun lead hlead => ?_⟩
      rw [Value.ofFields, List.map_nil, writeValue, hlead.piece]
      rfl
    | cons e es =>
      exact ⟨_, isWritten_ofFields level hdistinct hnames hwritten, isWrittenAs_ofFields hnames hwrite⟩

/-- A value that nests no deeper than reading goes is written, goes through a file, and is read. -/
theorem IsDocument.exists_write {depth : Nat} {v : Value} (h : IsDocument depth v)
    (hdepth : depth ≤ depthLimit) :
    ∃ text, write .file v = ⟨text, none⟩ ∧ Text.unifyNewlines text = text ∧ read text = .ok v := by
  obtain ⟨text, hwritten, hwrite⟩ := (h.mono hdepth).exists_text 0
  have hread : readDocument text = .ok v := by
    have hvalue := hwritten.read (2 * text.length + 2) [] (by omega) nofun
    have hskip := hwritten.skipSpace_append []
    obtain ⟨c, rest, htext, -, hmark, -⟩ := hwritten.begins
    rw [List.append_nil] at hvalue hskip
    unfold readDocument
    split
    · cases htext
      exact absurd rfl hmark
    · rw [hskip, hvalue]
      rfl
  refine ⟨text, hwrite "" .nil, hwritten.clean.unifyNewlines, ?_⟩
  rw [read, hread]

end HttpWorkbench.Json
