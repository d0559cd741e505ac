import HttpWorkbench.Proofs.History.Reloaded
import HttpWorkbench.Proofs.Value.Same

/-!
# The first entry with an identifier

Removing, tagging and taking a tag off look for the first entry with an identifier. They change that
entry alone, also where identifiers or whole entries are there more than once: what is equal to the
entry has its identifier, so that nothing in front of it is. A row of such edits leaves every entry
with another identifier as it is, in its order.
-/

namespace HttpWorkbench

/-- A text occurs in a list of texts when it is one of them. -/
theorem Value.isIn_ofTexts (s : Text) (texts : List Text) :
    (Value.str s).isIn (.ofTexts texts) = .ok (decide (s ∈ texts)) := by
  have hsame (t : Text) : (Value.str t == Value.str s) = (t == s) := rfl
  rw [ofTexts, isIn, List.any_map, Except.ok.injEq, Bool.eq_iff_iff, decide_eq_true_eq,
    List.any_eq_true]
  simp only [Function.comp_apply, hsame, beq_iff_eq, exists_eq_right]

namespace HistoryEntry

/-- The identifier is a text and the tags are a list of texts. -/
def IsTagged (e : HistoryEntry) : Prop :=
  (∃ id : Text, e.id = .str id) ∧ ∃ tags : List Text, e.tags = .ofTexts tags

/-- Entries that are equal have the same identifier, if one of these is a text. -/
theorem id_of_same {e found : HistoryEntry} {id : Text} (h : e.same found = true)
    (hid : found.id = .str id) : e.id = .str id := by
  have hids : e.id.same found.id = true := (Bool.and_eq_true_iff.mp h).1
  rw [hid] at hids
  exact Value.eq_str_of_same hids

end HistoryEntry

namespace History

open HistoryEntry (IsTagged)

/-- The entries have texts for identifiers and lists of texts for tags. -/
def AreTagged (h : History) : Prop := ∀ e ∈ h.entries, e.IsTagged

/-- No entry has the identifier. -/
def Lacks (h : History) (id : Text) : Prop := ∀ e ∈ h.entries, e.id ≠ .str id

/-- An entry with the identifier stands between two rows, and none has it in the first. -/
structure FirstWith (h : History) (id : Text) (earlier : List HistoryEntry) (found : HistoryEntry)
    (later : List HistoryEntry) : Prop where
  entries : h.entries = earlier ++ found :: later
  named : found.id = .str id
  first : ∀ e ∈ earlier, e.id ≠ .str id

/-- The history with an entry between two rows that has other tags. -/
def retagged (h : History) (earlier : List HistoryEntry) (found : HistoryEntry)
    (later : List HistoryEntry) (tags : List Text) : History :=
  { h with entries := earlier ++ { found with tags := .ofTexts tags } :: later }

/-- The tags with one more at their end, unless it is there. -/
def withTag (tag : Text) (tags : List Text) : List Text :=
  if tags.contains tag then tags else tags ++ [tag]

/-- The tags without one of them. -/
def withoutTag (tag : Text) (tags : List Text) : List Text := tags.filter (· ≠ tag)

section Tags

variable {tag : Text} {tags : List Text}

theorem withTag_of_mem (h : tag ∈ tags) : withTag tag tags = tags :=
  if_pos (List.contains_iff_mem.mpr h)

theorem withTag_of_notMem (h : tag ∉ tags) : withTag tag tags = tags ++ [tag] :=
  if_neg (mt List.contains_iff_mem.mp h)

end Tags

section First

variable {h : History} {id tag : Text} {earlier later : List HistoryEntry} {found : HistoryEntry}
variable {tags : List Text}

/-- Either no entry has the identifier, or one is the first that has it. -/
theorem lacks_or_firstWith (h : History) (id : Text) :
    h.Lacks id ∨ ∃ earlier found later, h.FirstWith id earlier found later := by
  cases hget : h.get? (.str id) with
  | none =>
    rw [get?, List.find?_eq_none] at hget
    exact .inl fun e he hid => hget e he (Value.isEqual_str_iff.mpr hid)
  | some found =>
    rw [get?, List.find?_eq_some_iff_append] at hget
    obtain ⟨hfound, earlier, later, hentries, hfirst⟩ := hget
    refine .inr ⟨earlier, found, later, hentries, Value.isEqual_str_iff.mp hfound, fun e he => ?_⟩
    exact Value.isEqual_str_eq_false_iff.mp (by simpa using hfirst e he)

/-- Nothing is dropped but the entry between the rows, if none in front of it is equal to it. -/
theorem dropEqual_of_ne (hfirst : ∀ e ∈ earlier, e.same found = false) :
    dropEqual found later earlier = earlier ++ later := by
  induction earlier with
  | nil => rfl
  | cons e earlier ih =>
    rw [List.forall_mem_cons] at hfirst
    rw [dropEqual, if_neg (by rw [hfirst.1]; exact Bool.false_ne_true), ih hfirst.2,
      List.cons_append]

theorem remove_of_lacks (hid : h.Lacks id) : h.remove (.str id) = (false, h) := by
  have hnone : h.entries.dropWhile (fun e => !e.id.isEqual (.str id)) = [] := by
    rw [List.dropWhile_eq_nil_iff]
    intro e he
    rw [Value.isEqual_str_eq_false_iff.mpr (hid e he), Bool.not_false]
  rw [remove, hnone]

/-- The first entry with the identifier is removed. -/
theorem remove_of_firstWith (hf : h.FirstWith id earlier found later) :
    h.remove (.str id) = (true, { h with entries := earlier ++ later }) := by
  have hpassed : ∀ e ∈ earlier, (!e.id.isEqual (.str id)) = true := fun e he => by
    rw [Value.isEqual_str_eq_false_iff.mpr (hf.first e he), Bool.not_false]
  have hstop : (!found.id.isEqual (.str id)) = false := by
    rw [Value.isEqual_str_iff.mpr hf.named, Bool.not_true]
  have hdrop : h.entries.dropWhile (fun e => !e.id.isEqual (.str id)) = found :: later := by
    rw [hf.entries, List.dropWhile_append_of_pos hpassed, List.dropWhile_cons, hstop]
    rfl
  have htake : h.entries.takeWhile (fun e => !e.id.isEqual (.str id)) = earlier := by
    rw [hf.entries, List.takeWhile_append_of_pos hpassed, List.takeWhile_cons, hstop]
    exact List.append_nil earlier
  have hdistinct : ∀ e ∈ earlier, e.same found = false := fun e he => by
    rw [Bool.eq_false_iff]
    exact fun hsame => hf.first e he (HistoryEntry.id_of_same hsame hf.named)
  rw [History.remove, hdrop]
  simp only [htake, dropEqual_of_ne hdistinct]

/-! ## Tagging -/

theorem modifyFirst_of_none {test : HistoryEntry → Bool} {change : HistoryEntry → Result HistoryEntry}
    {entries : List HistoryEntry} (hnone : ∀ e ∈ entries, test e = false) :
    modifyFirst test change entries = .ok entries := by
  induction entries with
  | nil => rfl
  | cons e entries ih =>
    rw [List.forall_mem_cons] at hnone
    rw [modifyFirst, hnone.1, if_neg Bool.false_ne_true, ih hnone.2]
    rfl

/-- A change is made to the first entry that passes the test, and to no other. -/
theorem modifyFirst_append {test : HistoryEntry → Bool} {change : HistoryEntry → Result HistoryEntry}
    {changed : HistoryEntry} (hfirst : ∀ e ∈ earlier, test e = false) (hfound : test found = true)
    (hchange : change found = .ok changed) :
    modifyFirst test change (earlier ++ found :: later) = .ok (earlier ++ changed :: later) := by
  induction earlier with
  | nil =>
    rw [List.nil_append, modifyFirst, if_pos hfound, hchange]
    rfl
  | cons e earlier ih =>
    rw [List.forall_mem_cons] at hfirst
    rw [List.cons_append, modifyFirst, hfirst.1, if_neg Bool.false_ne_true, ih hfirst.2]
    rfl

/-- A change of the first entry with an identifier that is not there changes nothing. -/
theorem modifyFirst_of_lacks (hid : h.Lacks id) (change : HistoryEntry → Result HistoryEntry) :
    modifyFirst (fun e => e.id.isEqual (.str id)) change h.entries = .ok h.entries :=
  modifyFirst_of_none fun e he => Value.isEqual_str_eq_false_iff.mpr (hid e he)

/-- A change of the first entry with an identifier changes that one. -/
theorem modifyFirst_of_firstWith (hf : h.FirstWith id earlier found later)
    {change : HistoryEntry → Result HistoryEntry} (changed : HistoryEntry)
    (hchange : change found = .ok changed) :
    modifyFirst (fun e => e.id.isEqual (.str id)) change h.entries =
      .ok (earlier ++ changed :: later) := by
  rw [hf.entries]
  exact modifyFirst_append (fun e he => Value.isEqual_str_eq_false_iff.mpr (hf.first e he))
    (Value.isEqual_str_iff.mpr hf.named) hchange

theorem tag_of_lacks (hid : h.Lacks id) : h.tag (.str id) (.str tag) = .ok h := by
  rw [History.tag, modifyFirst_of_lacks hid]
  rfl

theorem untag_of_lacks (hid : h.Lacks id) : h.untag (.str id) (.str tag) = .ok h := by
  rw [untag, modifyFirst_of_lacks hid]
  rfl

/-- The first entry with the identifier gets the tag, unless it has it. -/
theorem tag_of_firstWith (hf : h.FirstWith id earlier found later)
    (htags : found.tags = .ofTexts tags) :
    h.tag (.str id) (.str tag) = .ok (h.retagged earlier found later (withTag tag tags)) := by
  rw [History.tag, modifyFirst_of_firstWith hf { found with tags := .ofTexts (withTag tag tags) }]
  · rfl
  · rw [htags, Value.isIn_ofTexts, ok_bind]
    by_cases hthere : tag ∈ tags
    · rw [decide_eq_true hthere, withTag_of_mem hthere, ← htags]
      rfl
    · rw [decide_eq_false hthere, withTag_of_notMem hthere]
      simp [Value.ofTexts]

/-- The tag is taken off the first entry with the identifier. -/
theorem untag_of_firstWith (hf : h.FirstWith id earlier found later)
    (htags : found.tags = .ofTexts tags) :
    h.untag (.str id) (.str tag) = .ok (h.retagged earlier found later (withoutTag tag tags)) := by
  have hkept : (fun t => !Value.isEqual t (.str tag)) ∘ Value.str = fun t => decide (t ≠ tag) := by
    funext t
    rw [Bool.eq_iff_iff]
    simp
  have hitems : (Value.ofTexts tags).items = .ok (tags.map .str) := rfl
  rw [History.untag, modifyFirst_of_firstWith hf { found with tags := .ofTexts (withoutTag tag tags) }]
  · rfl
  · rw [htags, hitems, ok_bind, List.filter_map, hkept]
    rfl

/-- The first entry with an identifier is still the first with other tags. -/
theorem FirstWith.retagged (hf : h.FirstWith id earlier found later) (tags : List Text) :
    (h.retagged earlier found later tags).FirstWith id earlier { found with tags := .ofTexts tags }
      later where
  entries := rfl
  named := hf.named
  first := hf.first

theorem FirstWith.isTagged (hf : h.FirstWith id earlier found later) (hh : h.AreTagged) :
    found.IsTagged :=
  hh found (hf.entries ▸ List.mem_append_right earlier List.mem_cons_self)

end First

/-! ## Rows of edits -/

/-- A change of the first entry with an identifier. -/
inductive Edit where
  | remove (id : Text)
  | tag (id tag : Text)
  | untag (id tag : Text)

/-- The identifier that an edit looks for. -/
def Edit.id : Edit → Text
  | .remove id | .tag id _ | .untag id _ => id

/-- The history after an edit. -/
def edit (h : History) : Edit → Result History
  | .remove id => .ok (h.remove (.str id)).2
  | .tag id tag => h.tag (.str id) (.str tag)
  | .untag id tag => h.untag (.str id) (.str tag)

/-- A history that comes from another by edits of entries with some identifiers. Whatever is asked of
identifiers that none of these meets, the same entries meet it before and after. -/
structure EditedFrom (ids : List Text) (h h' : History) : Prop where
  tagged : h'.AreTagged
  others : ∀ keep : Value → Bool, (∀ id ∈ ids, keep (.str id) = false) →
    h'.entries.filter (fun e => keep e.id) = h.entries.filter fun e => keep e.id
  kept : (h'.entries.map HistoryEntry.untagged).Sublist (h.entries.map HistoryEntry.untagged)
  limit : h'.limit = h.limit
  lastNumber : h'.lastNumber = h.lastNumber

section Edits

variable {h h' h'' : History} {ids : List Text} {id : Text}
variable {earlier later : List HistoryEntry} {found : HistoryEntry}

theorem edit_remove {removed : Bool} (hremove : h.remove (.str id) = (removed, h')) :
    h.edit (.remove id) = .ok h' := by
  rw [edit, hremove]

theorem EditedFrom.refl (hh : h.AreTagged) (ids : List Text) : EditedFrom ids h h :=
  ⟨hh, fun _ _ => rfl, List.Sublist.refl _, rfl, rfl⟩

theorem EditedFrom.trans (hfirst : EditedFrom ids h h') (hsecond : EditedFrom ids h' h'') :
    EditedFrom ids h h'' where
  tagged := hsecond.tagged
  others keep hkeep := (hsecond.others keep hkeep).trans (hfirst.others keep hkeep)
  kept := hsecond.kept.trans hfirst.kept
  limit := hsecond.limit.trans hfirst.limit
  lastNumber := hsecond.lastNumber.trans hfirst.lastNumber

/-- What stands in the place of the first entry with an identifier may be that entry with other tags, or
nothing. -/
theorem FirstWith.editedFrom (hf : h.FirstWith id earlier found later) (hh : h.AreTagged)
    (hid : id ∈ ids) (left : List HistoryEntry) (htagged : ∀ e ∈ left, e.IsTagged)
    (hnamed : ∀ e ∈ left, e.id = .str id)
    (hleft : (left.map HistoryEntry.untagged).Sublist [found.untagged]) :
    EditedFrom ids h { h with entries := earlier ++ left ++ later } := by
  have hh' : ∀ e ∈ earlier ++ found :: later, e.IsTagged := hf.entries ▸ hh
  rw [List.forall_mem_append, List.forall_mem_cons] at hh'
  obtain ⟨hearlier, -, hlater⟩ := hh'
  refine ⟨?_, fun keep hkeep => ?_, ?_, rfl, rfl⟩
  · simp only [AreTagged, List.forall_mem_append]
    exact ⟨⟨hearlier, htagged⟩, hlater⟩
  · have hgone : left.filter (fun e => keep e.id) = [] :=
      List.filter_eq_nil_iff.mpr fun e he => by
        rw [hnamed e he, hkeep id hid]
        exact Bool.false_ne_true
    have hpassed : keep found.id = false := hf.named ▸ hkeep id hid
    simp only [hf.entries, List.filter_append, hgone, List.append_nil, List.filter_cons, hpassed,
      if_neg Bool.false_ne_true]
  · rw [hf.entries, List.append_assoc]
    simp only [List.map_append, List.map_cons]
    exact (List.Sublist.refl _).append (hleft.append_right _)

theorem FirstWith.editedFrom_retagged (hf : h.FirstWith id earlier found later) (hh : h.AreTagged)
    (hid : id ∈ ids) (tags : List Text) :
    EditedFrom ids h (h.retagged earlier found later tags) := by
  have hedited := hf.editedFrom hh hid [{ found with tags := .ofTexts tags }]
    (List.forall_mem_singleton.mpr ⟨⟨id, hf.named⟩, tags, rfl⟩)
    (List.forall_mem_singleton.mpr hf.named) (List.Sublist.refl _)
  rwa [List.append_assoc] at hedited

/-- An edit does not fail, and changes only an entry with its identifier. -/
theorem exists_edit (hh : h.AreTagged) (e : Edit) (hid : e.id ∈ ids) :
    ∃ h', h.edit e = .ok h' ∧ EditedFrom ids h h' := by
  rcases lacks_or_firstWith h e.id with hlacks | ⟨earlier, found, later, hf⟩
  · refine ⟨h, ?_, EditedFrom.refl hh ids⟩
    cases e with
    | remove id => exact edit_remove (remove_of_lacks hlacks)
    | tag id tag => exact tag_of_lacks hlacks
    | untag id tag => exact untag_of_lacks hlacks
  · obtain ⟨-, tags, htags⟩ := hf.isTagged hh
    cases e with
    | remove id =>
      refine ⟨{ h with entries := earlier ++ later }, edit_remove (remove_of_firstWith hf), ?_⟩
      have hedited := hf.editedFrom hh hid [] (List.forall_mem_nil _)
        (List.forall_mem_nil _) (List.nil_sublist _)
      rwa [List.append_nil] at hedited
    | tag id tag => exact ⟨_, tag_of_firstWith hf htags, hf.editedFrom_retagged hh hid _⟩
    | untag id tag => exact ⟨_, untag_of_firstWith hf htags, hf.editedFrom_retagged hh hid _⟩

/-- A row of edits does not fail, and leaves every entry without one of their identifiers as it is. -/
theorem exists_edits (hh : h.AreTagged) (edits : List Edit) (hids : ∀ e ∈ edits, e.id ∈ ids) :
    ∃ h', edits.foldlM edit h = .ok h' ∧ EditedFrom ids h h' := by
  induction edits generalizing h with
  | nil => exact ⟨h, rfl, EditedFrom.refl hh ids⟩
  | cons e edits ih =>
    rw [List.forall_mem_cons] at hids
    obtain ⟨next, hnext, hfirst⟩ := exists_edit hh e hids.1
    obtain ⟨last, hlast, hrest⟩ := ih hfirst.tagged hids.2
    refine ⟨last, ?_, hfirst.trans hrest⟩
    rw [List.foldlM_cons, hnext]
    exact hlast

end Edits

end History

end HttpWorkbench
