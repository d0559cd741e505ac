import HttpWorkbench.Export.Escape

/-!
# Words of a shell command

How a shell cuts the text of one simple command into words, one character at a time. Blanks outside
quotes separate words, and a backslash before a line end vanishes together with it. A character
that would do more than stand for itself, such as an operator, a pattern or the start of an
expansion, is refused, so a text that has words is one command with nothing left to expand.
-/

namespace HttpWorkbench.Shell

open Export (Escape)

/-- Where the reader of a command stands. -/
inductive Mode where
  | bare
  /-- After a backslash outside quotes. -/
  | bareEscape
  | single
  | double
  /-- After a backslash between double quotes. -/
  | doubleEscape
  deriving DecidableEq, Repr

/-- What has been read of a command: whole words, and the word that has been begun, if any. -/
structure Reader where
  mode : Mode
  finished : List Text
  word : Option Text
  deriving DecidableEq, Repr

/-- A blank between words. -/
def isBlank (c : CodePoint) : Bool := c == ' ' || c == '\t'

/-- The characters that have to be quoted to stand for themselves. Blanks, quotes and the backslash
have rules of their own. -/
def specials : List Char :=
  ['\n', '|', '&', ';', '<', '>', '(', ')', '$', '\x60', '*', '?', '[', '#', '~', '=', '%']

/-- Whether a character has to be quoted. -/
def isSpecial (c : CodePoint) : Bool := c.passes specials.contains

/-- A character that a backslash between double quotes takes literally. -/
def isEscapable (c : CodePoint) : Bool := c == '"' || c == '\\' || c == '$' || c == '\x60'

namespace Reader

/-- Nothing read. -/
def start : Reader := ⟨.bare, [], none⟩

/-- The reader in another mode. -/
def enter (r : Reader) (mode : Mode) : Reader := { r with mode }

/-- Characters added to the word, which begins with them if there is none. -/
def push (r : Reader) (cs : Text) : Reader := { r with word := some (r.word.getD [] ++ cs) }

/-- The word, if there is one, finished. -/
def close (r : Reader) : Reader :=
  match r.word with
  | none => r
  | some word => { r with finished := r.finished ++ [word], word := none }

/-- Read one character; none for one that is refused. -/
def step (r : Reader) (c : CodePoint) : Option Reader :=
  match r.mode with
  | .bare =>
    if isBlank c then some r.close
    else if c = '\x27' then some ((r.push []).enter .single)
    else if c = '"' then some ((r.push []).enter .double)
    else if c = '\\' then some (r.enter .bareEscape)
    else if isSpecial c then none
    else some (r.push [c])
  | .bareEscape =>
    if c = '\n' then some (r.enter .bare) else some ((r.push [c]).enter .bare)
  | .single =>
    if c = '\x27' then some (r.enter .bare) else some (r.push [c])
  | .double =>
    if c = '"' then some (r.enter .bare)
    else if c = '\\' then some (r.enter .doubleEscape)
    else if c = '$' ∨ c = '\x60' then none
    else some (r.push [c])
  | .doubleEscape =>
    if isEscapable c then some ((r.push [c]).enter .double)
    else if c = '\n' then some (r.enter .double)
    else some ((r.push ['\\', c]).enter .double)

/-- Read a text. -/
def feed (r : Reader) (cs : Text) : Option Reader := cs.foldlM step r

end Reader

/-- The words of a command; none when a quote is left open or a character is refused. -/
def words (command : Text) : Option (List Text) := do
  let r ← Reader.start.feed command
  if r.mode = .bare then some r.close.finished else none

/-- A character that stands for itself in every position outside quotes. -/
def IsPlain (c : CodePoint) : Prop :=
  isBlank c = false ∧ c ≠ '\x27' ∧ c ≠ '"' ∧ c ≠ '\\' ∧ isSpecial c = false

/-- A text in which nothing between double quotes has a meaning but the double quote. -/
def IsQuotable (t : Text) : Prop := ∀ c ∈ t, c ≠ .char '\\' ∧ c ≠ .char '$' ∧ c ≠ .char '\x60'

instance (t : Text) : Decidable (IsQuotable t) := inferInstanceAs (Decidable (∀ c ∈ t, _))

theorem IsQuotable.append {s t : Text} (hs : IsQuotable s) (ht : IsQuotable t) :
    IsQuotable (s ++ t) := List.forall_mem_append.mpr ⟨hs, ht⟩

/-- An ASCII letter is plain. -/
theorem isPlain_of_isAlpha {c : CodePoint} (h : c.passes Char.isAlpha = true) : IsPlain c := by
  cases c with
  | half _ => simp [CodePoint.passes] at h
  | char c =>
    have hspecials : ∀ d ∈ specials, d.isAlpha = false := by simp [specials]
    have hne (d : Char) (hd : d.isAlpha = false) : c ≠ d := by
      rintro rfl
      exact Bool.false_ne_true (hd.symm.trans h)
    refine ⟨?_, ?_, ?_, ?_, ?_⟩
    · simp [isBlank, hne ' ' rfl, hne '\t' rfl]
    · simpa using hne '\x27' rfl
    · simpa using hne '"' rfl
    · simpa using hne '\\' rfl
    · have hmem : c ∉ specials := fun hc => hne c (hspecials c hc) rfl
      simpa [isSpecial, CodePoint.passes] using hmem

namespace Reader

@[simp] theorem feed_nil (r : Reader) : r.feed [] = some r := rfl

theorem feed_cons (r : Reader) (c : CodePoint) (cs : Text) :
    r.feed (c :: cs) = (r.step c).bind fun r => r.feed cs := rfl

/-- A text is read piece by piece. -/
theorem feed_append (r : Reader) (cs ds : Text) :
    r.feed (cs ++ ds) = (r.feed cs).bind fun r => r.feed ds := by
  rw [feed, List.foldlM_append]
  rfl

/-- Plain characters outside quotes make up a word as they are. -/
theorem feed_plain (done : List Text) (word cs : Text) (plain : ∀ c ∈ cs, IsPlain c) :
    (⟨.bare, done, some word⟩ : Reader).feed cs = some ⟨.bare, done, some (word ++ cs)⟩ := by
  induction cs generalizing word with
  | nil => simp
  | cons c cs ih =>
    obtain ⟨blank, single, double, backslash, special⟩ := plain c List.mem_cons_self
    have hstep : (⟨.bare, done, some word⟩ : Reader).step c =
        some ⟨.bare, done, some (word ++ [c])⟩ := by
      simp [step, blank, single, double, backslash, special, push]
    rw [feed_cons, hstep, Option.bind_some, ih _ fun d hd => plain d (List.mem_cons_of_mem _ hd),
      List.append_assoc, List.singleton_append]

/-- A word of plain characters begins where a word may begin. -/
theorem feed_plain_word (done : List Text) {cs : Text} (hne : cs ≠ []) (plain : ∀ c ∈ cs, IsPlain c) :
    (⟨.bare, done, none⟩ : Reader).feed cs = some ⟨.bare, done, some cs⟩ := by
  cases cs with
  | nil => exact absurd rfl hne
  | cons c cs =>
    obtain ⟨blank, single, double, backslash, special⟩ := plain c List.mem_cons_self
    have hstep : (⟨.bare, done, none⟩ : Reader).step c = some ⟨.bare, done, some [c]⟩ := by
      simp [step, blank, single, double, backslash, special, push]
    rw [feed_cons, hstep, Option.bind_some,
      feed_plain _ _ _ fun d hd => plain d (List.mem_cons_of_mem _ hd), List.singleton_append]

/-- Between single quotes, a text that is quoted for the shell adds itself to the word: each quote
in it leaves the quotes, stands behind a backslash, and enters them again. -/
theorem feed_shell_escape (done : List Text) (word cs : Text) :
    (⟨.single, done, some word⟩ : Reader).feed (Escape.shell.apply cs) =
      some ⟨.single, done, some (word ++ cs)⟩ := by
  induction cs generalizing word with
  | nil => simp
  | cons c cs ih =>
    by_cases hc : c = Escape.shell.mark
    · have hmark : (⟨.single, done, some word⟩ : Reader).feed Escape.shell.replacement =
          some ⟨.single, done, some (word ++ [Escape.shell.mark])⟩ := by
        simp [Escape.shell, feed_cons, step, enter, push, isBlank]
      rw [hc, Escape.apply_cons_mark, feed_append, hmark, Option.bind_some, ih, List.append_assoc,
        List.singleton_append]
    · have hstep : (⟨.single, done, some word⟩ : Reader).step c =
          some ⟨.single, done, some (word ++ [c])⟩ := if_neg hc
      rw [Escape.apply_cons_of_ne hc, feed_cons, hstep, Option.bind_some, ih, List.append_assoc,
        List.singleton_append]

/-- Between double quotes, a text without backslashes and expansions adds itself to the word when
its double quotes stand behind backslashes. -/
theorem feed_double_escape (done : List Text) (word cs : Text) (quotable : IsQuotable cs) :
    (⟨.double, done, some word⟩ : Reader).feed ((Escape.backslash '"').apply cs) =
      some ⟨.double, done, some (word ++ cs)⟩ := by
  induction cs generalizing word with
  | nil => simp
  | cons c cs ih =>
    obtain ⟨⟨backslash, dollar, backtick⟩, hcs⟩ := List.forall_mem_cons.mp quotable
    by_cases hc : c = (Escape.backslash '"').mark
    · have hmark : (⟨.double, done, some word⟩ : Reader).feed (Escape.backslash '"').replacement =
          some ⟨.double, done, some (word ++ [(Escape.backslash '"').mark])⟩ := by
        simp [Escape.backslash, feed_cons, step, enter, push, isEscapable]
      rw [hc, Escape.apply_cons_mark, feed_append, hmark, Option.bind_some, ih _ hcs,
        List.append_assoc, List.singleton_append]
    · have hstep : (⟨.double, done, some word⟩ : Reader).step c =
          some ⟨.double, done, some (word ++ [c])⟩ := by
        have hquote : c ≠ .char '"' := hc
        simp [step, hquote, backslash, dollar, backtick, push]
      rw [Escape.apply_cons_of_ne hc, feed_cons, hstep, Option.bind_some, ih _ hcs,
        List.append_assoc, List.singleton_append]

/-- A text between double quotes is a word, whatever blanks, line ends and quotes it holds. -/
theorem feed_double_quoted (done : List Text) {cs : Text} (quotable : IsQuotable cs) :
    (⟨.bare, done, none⟩ : Reader).feed ("\"" ++ ((Escape.backslash '"').apply cs ++ "\"")) =
      some ⟨.bare, done, some cs⟩ := by
  have hopen : (⟨.bare, done, none⟩ : Reader).feed "\"" = some ⟨.double, done, some []⟩ := rfl
  have hclose : (⟨.double, done, some cs⟩ : Reader).feed "\"" = some ⟨.bare, done, some cs⟩ := rfl
  rw [feed_append, hopen, Option.bind_some, feed_append, feed_double_escape done [] cs quotable,
    Option.bind_some, List.nil_append, hclose]

/-- A text between single quotes is a word, whatever it holds. -/
theorem feed_single_quoted (done : List Text) (cs : Text) :
    (⟨.bare, done, none⟩ : Reader).feed ("'" ++ (Escape.shell.apply cs ++ "'")) =
      some ⟨.bare, done, some cs⟩ := by
  have hopen : (⟨.bare, done, none⟩ : Reader).feed "'" = some ⟨.single, done, some []⟩ := rfl
  have hclose : (⟨.single, done, some cs⟩ : Reader).feed "'" = some ⟨.bare, done, some cs⟩ := rfl
  rw [feed_append, hopen, Option.bind_some, feed_append, feed_shell_escape done [] cs,
    Option.bind_some, List.nil_append, hclose]

end Reader

/-- Read after a word, the text adds words and leaves the last of them unfinished. -/
def AddsWords (cs : Text) (ws : List Text) : Prop :=
  ∀ done word, ∃ done' word', (⟨.bare, done, some word⟩ : Reader).feed cs =
    some ⟨.bare, done', some word'⟩ ∧ done' ++ [word'] = done ++ word :: ws

namespace AddsWords

/-- No text, no words. -/
theorem nil : AddsWords [] [] := fun done word => ⟨done, word, rfl, rfl⟩

/-- Texts that follow each other add their words one after the other. -/
theorem append {cs ds : Text} {ws vs : List Text} (h : AddsWords cs ws) (h' : AddsWords ds vs) :
    AddsWords (cs ++ ds) (ws ++ vs) := by
  intro done word
  obtain ⟨done₁, word₁, hfeed, hwords⟩ := h done word
  obtain ⟨done₂, word₂, hfeed', hwords'⟩ := h' done₁ word₁
  refine ⟨done₂, word₂, ?_, ?_⟩
  · rw [Reader.feed_append, hfeed, Option.bind_some, hfeed']
  · calc
      done₂ ++ [word₂] = done₁ ++ [word₁] ++ vs := by rw [hwords', List.append_assoc]; rfl
      _ = done ++ word :: (ws ++ vs) := by rw [hwords, List.append_assoc]; rfl

/-- A row of texts adds the words of each of them in order. -/
theorem flatMap {α : Type} {text : α → Text} {ws : α → List Text} (xs : List α)
    (h : ∀ x ∈ xs, AddsWords (text x) (ws x)) : AddsWords (xs.flatMap text) (xs.flatMap ws) := by
  induction xs with
  | nil => exact nil
  | cons x xs ih =>
    rw [List.flatMap_cons, List.flatMap_cons]
    exact (h x List.mem_cons_self).append (ih fun y hy => h y (List.mem_cons_of_mem _ hy))

end AddsWords

/-- What is read up to the end of a word, and then adds words, is the words of a command. -/
theorem words_of_addsWords {cs ds : Text} {done ws : List Text} {word : Text}
    (hfeed : Reader.start.feed cs = some ⟨.bare, done, some word⟩) (h : AddsWords ds ws) :
    words (cs ++ ds) = some (done ++ word :: ws) := by
  obtain ⟨done', word', hfeed', hwords⟩ := h done word
  have hall : Reader.start.feed (cs ++ ds) = some ⟨.bare, done', some word'⟩ := by
    rw [Reader.feed_append, hfeed, Option.bind_some, hfeed']
  rw [words, hall, ← hwords]
  rfl

end HttpWorkbench.Shell
