import HttpWorkbench.Environment.Store
import HttpWorkbench.Proofs.Environment.Occurrences

/-!
# Simultaneous substitution

The text with every known placeholder replaced at once is given character by character: the first
character of a known placeholder becomes the value, its other characters become nothing, and every
character outside known placeholders stays. There is exactly one such text, and cutting the text from
left to right gives it.
-/

namespace HttpWorkbench.Placeholder

/-- What the characters of a text become when every placeholder that the table knows is replaced. -/
structure Images (table : VariableTable) (text : Text) (images : List Text) : Prop where
  length : images.length = text.length
  replaced : ∀ {i : Nat} {o : Occurrence} {value : Text}, StandsAt text i o →
    Assoc.get? (.str o.name) table = some (.str value) → images[i]? = some value
  inside : ∀ {i j : Nat} {o : Occurrence} {value : Text}, StandsAt text i o →
    Assoc.get? (.str o.name) table = some (.str value) → i < j → j < i + o.whole.length →
    images[j]? = some []
  kept : ∀ {j : Nat} {c : CodePoint}, text[j]? = some c →
    (∀ (i : Nat) (o : Occurrence) (value : Text), StandsAt text i o →
      Assoc.get? (.str o.name) table = some (.str value) → ¬(i ≤ j ∧ j < i + o.whole.length)) →
    images[j]? = some [c]

/-- The result is the text with every placeholder that the table knows replaced by its value, and
every other character in place. -/
def IsSubstitution (table : VariableTable) (text result : Text) : Prop :=
  ∃ images, Images table text images ∧ result = images.flatten

/-- The form of the placeholders says what each character becomes. -/
theorem Images.unique {table : VariableTable} {text : Text} {images images' : List Text}
    (h : Images table text images) (h' : Images table text images') : images = images' := by
  refine List.ext_getElem? fun j => ?_
  by_cases hj : j < text.length
  · by_cases hcovered : ∃ (i : Nat) (o : Occurrence) (value : Text), StandsAt text i o ∧
      Assoc.get? (.str o.name) table = some (.str value) ∧ i ≤ j ∧ j < i + o.whole.length
    · obtain ⟨i, o, value, ho, hvalue, hle, hlt⟩ := hcovered
      rcases Nat.eq_or_lt_of_le hle with rfl | hij
      · rw [h.replaced ho hvalue, h'.replaced ho hvalue]
      · rw [h.inside ho hvalue hij hlt, h'.inside ho hvalue hij hlt]
    · have hfree (i : Nat) (o : Occurrence) (value : Text) (ho : StandsAt text i o)
          (hvalue : Assoc.get? (.str o.name) table = some (.str value)) :
          ¬(i ≤ j ∧ j < i + o.whole.length) := fun hij =>
        hcovered ⟨i, o, value, ho, hvalue, hij⟩
      have hc := List.getElem?_eq_getElem hj
      rw [h.kept hc hfree, h'.kept hc hfree]
  · rw [List.getElem?_eq_none (by rw [h.length]; omega),
      List.getElem?_eq_none (by rw [h'.length]; omega)]

theorem IsSubstitution.unique {table : VariableTable} {text result result' : Text}
    (h : IsSubstitution table text result) (h' : IsSubstitution table text result') :
    result = result' := by
  obtain ⟨images, himages, rfl⟩ := h
  obtain ⟨images', himages', rfl⟩ := h'
  rw [himages.unique himages']

/-- A text without known placeholders is its own substitution. -/
theorem isSubstitution_self {table : VariableTable} {text : Text}
    (h : ∀ (i : Nat) (o : Occurrence) (value : Text), StandsAt text i o →
      Assoc.get? (.str o.name) table ≠ some (.str value)) : IsSubstitution table text text := by
  refine ⟨text.map fun c => [c], ⟨List.length_map _, ?_, ?_, ?_⟩, ?_⟩
  · intro i o value ho hvalue
    exact absurd hvalue (h i o value ho)
  · intro i j o value ho hvalue
    exact absurd hvalue (h i o value ho)
  · intro j c hc _
    rw [List.getElem?_map, hc]
    rfl
  · rw [← List.flatMap_def, List.flatMap_singleton']

/-- Passing over the characters that a text begins with leaves the parts of the rest. -/
theorem piecesAfter_append (xs ys : Text) : piecesAfter xs.length (xs ++ ys) = pieces ys := by
  induction xs with
  | nil => rfl
  | cons x xs ih => exact ih

/-- A placeholder that the text begins with is its first part. -/
theorem pieces_append {o : Occurrence} (ho : o.IsPlaceholder) (after : Text) :
    pieces (o.whole ++ after) = .placeholder o :: pieces after := by
  obtain ⟨body, hwhole, -, -⟩ := ho.exists_body
  have hscan := occurrence?_append ho after
  rw [hwhole, List.cons_append] at hscan ⊢
  rw [pieces, piecesAfter, hscan]
  simp only [hwhole, List.length_cons, Nat.add_sub_cancel]
  rw [← List.length_cons (a := CodePoint.char '\x7b'), piecesAfter_append]

theorem pieces_cons {c : CodePoint} {rest : Text} (h : occurrence? (c :: rest) = none) :
    pieces (c :: rest) = .char c :: pieces rest := by
  rw [pieces, piecesAfter, h]
  rfl

/-- A text is empty, or begins with a placeholder, or begins with a character where none begins. -/
theorem pieces_induction {motive : Text → Prop} (nil : motive [])
    (char : ∀ c rest, occurrence? (c :: rest) = none → motive rest → motive (c :: rest))
    (placeholder : ∀ (o : Occurrence) (after : Text), o.IsPlaceholder → motive after →
      motive (o.whole ++ after)) (text : Text) : motive text := by
  induction hn : text.length using Nat.strong_induction_on generalizing text with
  | h n ih =>
    subst hn
    cases text with
    | nil => exact nil
    | cons c rest =>
      cases hscan : occurrence? (c :: rest) with
      | none => exact char c rest hscan (ih rest.length (by simp) rest rfl)
      | some o =>
        obtain ⟨ho, after, hafter⟩ := occurrence?_eq_some_iff.mp hscan
        obtain ⟨body, hwhole, -, -⟩ := ho.exists_body
        rw [← hafter]
        refine placeholder o after ho (ih after.length ?_ after rfl)
        rw [← hafter, hwhole, List.length_append, List.length_cons]
        omega

/-- The value that a table knows for a placeholder, if that is a text. -/
def known (table : VariableTable) (o : Occurrence) : Option Text :=
  match Assoc.get? (.str o.name) table with
  | some (.str value) => some value
  | _ => none

theorem known_eq_some_iff {table : VariableTable} {o : Occurrence} {value : Text} :
    known table o = some value ↔ Assoc.get? (.str o.name) table = some (.str value) := by
  unfold known
  split
  · rename_i found hfound
    rw [hfound, Option.some.injEq, Option.some.injEq, Value.str.injEq]
  · rename_i hother
    constructor
    · nofun
    · exact fun h => absurd h (hother value)

/-- What a part of a text becomes. -/
def replacement (table : VariableTable) : Piece → Text
  | .char c => [c]
  | .placeholder o => (known table o).getD o.whole

/-- What the characters of a part become. -/
def pieceImages (table : VariableTable) : Piece → List Text
  | .char c => [[c]]
  | .placeholder o =>
    match known table o with
    | some value => value :: List.replicate (o.whole.length - 1) []
    | none => o.whole.map fun c => [c]

theorem flatten_pieceImages (table : VariableTable) (piece : Piece) :
    (pieceImages table piece).flatten = replacement table piece := by
  cases piece with
  | char c => rfl
  | placeholder o =>
    rw [pieceImages, replacement]
    cases known table o with
    | some value => simp
    | none => rw [← List.flatMap_def, List.flatMap_singleton', Option.getD_none]

theorem length_pieceImages (table : VariableTable) {o : Occurrence} (ho : o.IsPlaceholder) :
    (pieceImages table (.placeholder o)).length = o.whole.length := by
  obtain ⟨body, hwhole, -, -⟩ := ho.exists_body
  rw [pieceImages]
  cases known table o with
  | some value => rw [List.length_cons, List.length_replicate, hwhole, List.length_cons,
      Nat.add_sub_cancel]
  | none => exact List.length_map _

/-- A placeholder of a text that begins with one is that one, or stands in the rest. -/
theorem standsAt_append {o p : Occurrence} (ho : o.IsPlaceholder) {after : Text} {i : Nat}
    (hp : StandsAt (o.whole ++ after) i p) :
    (i = 0 ∧ p = o) ∨ ∃ k, i = o.whole.length + k ∧ StandsAt after k p := by
  have hhead : StandsAt (o.whole ++ after) 0 o := ⟨ho, List.prefix_append _ _⟩
  rcases Nat.eq_zero_or_pos i with rfl | hpos
  · exact Or.inl ⟨rfl, hp.unique hhead⟩
  · have hle := hhead.le_of_lt hp hpos
    refine Or.inr ⟨i - o.whole.length, by omega, hp.1, ?_⟩
    have hbegins := hp.2
    rwa [List.drop_append, List.drop_eq_nil_of_le (by omega), List.nil_append] at hbegins

theorem StandsAt.append_left {after : Text} {k : Nat} {p : Occurrence} (hp : StandsAt after k p)
    (whole : Text) : StandsAt (whole ++ after) (whole.length + k) p := by
  refine ⟨hp.1, ?_⟩
  rw [List.drop_append, List.drop_eq_nil_of_le (Nat.le_add_right _ _), List.nil_append,
    Nat.add_sub_cancel_left]
  exact hp.2

theorem not_standsAt_zero {text : Text} (h : occurrence? text = none) (o : Occurrence) :
    ¬StandsAt text 0 o := by
  intro ho
  rw [StandsAt, List.drop_zero, ← occurrence?_eq_some_iff, h] at ho
  cases ho

theorem not_standsAt_nil (i : Nat) (o : Occurrence) : ¬StandsAt [] i o := by
  rw [StandsAt, List.drop_nil]
  exact not_standsAt_zero rfl o

/-- A character where no placeholder begins becomes itself. -/
theorem Images.cons {table : VariableTable} {c : CodePoint} {rest : Text} {images : List Text}
    (hscan : occurrence? (c :: rest) = none) (h : Images table rest images) :
    Images table (c :: rest) ([c] :: images) where
  length := by rw [List.length_cons, List.length_cons, h.length]
  replaced := by
    intro i o value ho hvalue
    cases i with
    | zero => exact absurd ho (not_standsAt_zero hscan o)
    | succ i => exact h.replaced (i := i) ho hvalue
  inside := by
    intro i j o value ho hvalue hij hj
    cases i with
    | zero => exact absurd ho (not_standsAt_zero hscan o)
    | succ i =>
      cases j with
      | zero => omega
      | succ j => exact h.inside (i := i) (j := j) ho hvalue (by omega) (by omega)
  kept := by
    intro j d hd hfree
    cases j with
    | zero =>
      obtain rfl : c = d := Option.some.inj hd
      rfl
    | succ j =>
      refine h.kept (j := j) hd fun i o value ho hvalue hij => ?_
      exact hfree (i + 1) o value ho hvalue (by omega)

/-- What a placeholder that the text begins with becomes, before what the rest becomes. -/
theorem Images.append {table : VariableTable} {o : Occurrence} (ho : o.IsPlaceholder) {after : Text}
    {images : List Text} (h : Images table after images) :
    Images table (o.whole ++ after) (pieceImages table (.placeholder o) ++ images) where
  length := by
    rw [List.length_append, List.length_append, length_pieceImages table ho, h.length]
  replaced := by
    intro i p value hp hvalue
    rcases standsAt_append ho hp with ⟨rfl, rfl⟩ | ⟨k, rfl, hk⟩
    · rw [pieceImages, known_eq_some_iff.mpr hvalue]
      rfl
    · rw [← length_pieceImages table ho, List.getElem?_append_right (Nat.le_add_right _ _),
        Nat.add_sub_cancel_left]
      exact h.replaced hk hvalue
  inside := by
    intro i j p value hp hvalue hij hj
    rcases standsAt_append ho hp with ⟨rfl, rfl⟩ | ⟨k, rfl, hk⟩
    · obtain ⟨j, rfl⟩ := Nat.exists_eq_add_of_lt hij
      rw [pieceImages, known_eq_some_iff.mpr hvalue]
      simp only [Nat.zero_add, List.cons_append, List.getElem?_cons_succ]
      rw [List.getElem?_append_left (by rw [List.length_replicate]; omega),
        List.getElem?_replicate_of_lt (by omega)]
    · obtain ⟨j, rfl⟩ := Nat.exists_eq_add_of_lt hij
      have hlength := length_pieceImages table ho
      rw [List.getElem?_append_right (by omega)]
      exact h.inside hk hvalue (by omega) (by omega)
  kept := by
    intro j c hc hfree
    have hlength := length_pieceImages table ho
    by_cases hj : j < o.whole.length
    · rw [List.getElem?_append_left (by omega)]
      rw [List.getElem?_append_left hj] at hc
      rw [pieceImages]
      cases hknown : known table o with
      | some value =>
        refine absurd ⟨Nat.zero_le j, by omega⟩ (hfree 0 o value ⟨ho, List.prefix_append _ _⟩ ?_)
        exact known_eq_some_iff.mp hknown
      | none =>
        rw [List.getElem?_map, hc]
        rfl
    · rw [List.getElem?_append_right (by omega)] at hc ⊢
      rw [hlength]
      refine h.kept hc fun i p value hp hvalue hij => ?_
      exact hfree (o.whole.length + i) p value (hp.append_left o.whole) hvalue (by omega)

/-- Cutting a text from left to right finds what each of its characters becomes. -/
theorem images_pieces (table : VariableTable) (text : Text) :
    Images table text ((pieces text).flatMap (pieceImages table)) := by
  induction text using pieces_induction with
  | nil =>
    exact ⟨rfl, fun ho => absurd ho (not_standsAt_nil _ _),
      fun ho => absurd ho (not_standsAt_nil _ _), nofun⟩
  | char c rest hscan ih =>
    rw [pieces_cons hscan, List.flatMap_cons]
    exact ih.cons hscan
  | placeholder o after ho ih =>
    rw [pieces_append ho, List.flatMap_cons]
    exact ih.append ho

/-- Replacing the parts of a text one after the other is the substitution. -/
theorem isSubstitution_pieces (table : VariableTable) (text : Text) :
    IsSubstitution table text ((pieces text).flatMap (replacement table)) := by
  refine ⟨_, images_pieces table text, ?_⟩
  have hpieces : replacement table = fun piece => (pieceImages table piece).flatMap id := by
    funext piece
    rw [← List.flatten_eq_flatMap, flatten_pieceImages]
  rw [List.flatten_eq_flatMap, List.flatMap_assoc, hpieces]

end HttpWorkbench.Placeholder
