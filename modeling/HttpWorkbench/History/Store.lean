import HttpWorkbench.Clock.Timestamp
import HttpWorkbench.History.Entry
import HttpWorkbench.Value.Sorted

/-!
# History

The latest executed requests, newest first, up to a limit. Identifiers are made from the clock
and grow strictly, also when the clock stands still or goes back. The limit is a value that
nothing has checked, so trimming can fail; what was changed before stays changed, and every
operation that can fail half-way gives the store beside its result.
-/

namespace HttpWorkbench

/-- The limit when none is given. -/
def defaultHistoryLimit : Nat := 50

/-- Executed requests, newest first. -/
structure History where
  entries : List HistoryEntry
  limit : Value
  /-- The number in the last identifier that was made. -/
  lastNumber : Int

namespace History

/-- No entries. -/
def new (limit : Value) : History := ⟨[], limit, 0⟩

/-- Drop the oldest entries beyond the limit. A negative limit counts from the end. -/
def trim (h : History) : History × Result Unit :=
  match Value.isGreater (.int h.entries.length) h.limit with
  | .error failure => (h, .error failure)
  | .ok false => (h, .ok ())
  | .ok true =>
    match h.limit.asInt? with
    | none => (h, misused .badSlice)
    | some n =>
      let kept := if n < 0 then (h.entries.length + n).toNat else n.toNat
      ({ h with entries := h.entries.take kept }, .ok ())

/-- The next number for an identifier at a clock reading. -/
def nextNumber (h : History) (now : Int) : Int :=
  if now ≤ h.lastNumber then h.lastNumber + 1 else now

/-- The identifier with a number. -/
def identifier (n : Int) : Text := "hist_" ++ intText n

/-- The named fields of a new entry; those that the store assigns are dropped. -/
def givenFields (entries : List (Value × Value)) : Result (List (Value × Value)) := do
  let named : List (Text × Value) ← entries.mapM fun (k, v) =>
    match k with
    | .str s => .ok (s, v)
    | _ => misused .keywordsNotText
  if Assoc.contains ("self" : Text) named then
    misused (.repeatedArgument "HistoryStore.add_to_history" "self")
  else
    .ok ((named.filter fun (s, _) => s != "id" && s != "timestamp").map fun (s, v) => (.str s, v))

/-- Record an executed request at a clock reading. -/
def add (h : History) (fields : List (Value × Value)) (now : Int) : History × Result HistoryEntry :=
  match givenFields fields with
  | .error failure => (h, .error failure)
  | .ok given =>
    let n := h.nextNumber now
    let h := { h with lastNumber := n }
    let assigned : List (Value × Value) :=
      [(.str "id", .str (identifier n)), (.str "timestamp", .str (timestamp now))]
    match HistoryEntry.shape.arguments (assigned ++ given) with
    | .error failure => (h, .error failure)
    | .ok args =>
      let entry := HistoryEntry.ofArguments args
      let (h, trimmed) := { h with entries := entry :: h.entries }.trim
      (h, trimmed.map fun _ => entry)

/-- Drop every entry. -/
def clear (h : History) : History := { h with entries := [] }

/-- The first entry with an identifier. -/
def get? (h : History) (id : Value) : Option HistoryEntry := h.entries.find? fun e => e.id.isEqual id

/-- Drop the first entry that is equal to the one between two rows, which itself is the last that can
go. -/
def dropEqual (found : HistoryEntry) (later : List HistoryEntry) :
    List HistoryEntry → List HistoryEntry
  | [] => later
  | e :: earlier =>
    if e.same found then earlier ++ found :: later else e :: dropEqual found later earlier

/-- Remove the first entry with an identifier, telling whether there was one. It is found by its
identifier, and dropped by what all of its fields are. -/
def remove (h : History) (id : Value) : Bool × History :=
  match h.entries.dropWhile fun e => !e.id.isEqual id with
  | [] => (false, h)
  | found :: later =>
    let earlier := h.entries.takeWhile fun e => !e.id.isEqual id
    (true, { h with entries := dropEqual found later earlier })

/-- Change the limit to one that is not negative. -/
def setLimit (h : History) (limit : Value) : History × Result Unit :=
  match Value.isLess limit (.int 0) with
  | .error failure => (h, .error failure)
  | .ok true => (h, misused (.negativeLimit limit.text))
  | .ok false => { h with limit }.trim

/-- Entries by timestamp, latest first, equal ones as they stand. -/
def sorted (h : History) : Result (List HistoryEntry) :=
  Value.sortByDescending HistoryEntry.timestamp h.entries

/-- Whether a needle in lower case occurs in the url or method of an entry. -/
def matchesNeedle (needle : Value) (e : HistoryEntry) : Result Bool := do
  let url ← e.url.lowered
  let inUrl ← needle.isIn url
  if inUrl then .ok true
  else
    let method ← e.method.lowered
    needle.isIn method

/-- The elements that satisfy a test which may fail. -/
def selectM (test : α → Result Bool) : List α → Result (List α)
  | [] => .ok []
  | x :: rest => do
    let keep ← test x
    let more ← selectM test rest
    .ok (if keep then x :: more else more)

/-- Entries whose url or method holds the query, case aside. A blank query finds every entry. -/
def search (h : History) (query : Value) : Result (List HistoryEntry) := do
  let trimmed ← query.trimmed
  if !trimmed.isTrue then .ok h.entries
  else
    let needle ← query.lowered
    selectM (matchesNeedle needle) h.entries

/-- Change the first element that satisfies a test, by a change that may fail. -/
def modifyFirst (test : α → Bool) (change : α → Result α) : List α → Result (List α)
  | [] => .ok []
  | x :: rest =>
    if test x then (change x).map (· :: rest)
    else (modifyFirst test change rest).map (x :: ·)

/-- Tag the first entry with an identifier, unless it has the tag. -/
def tag (h : History) (id tag : Value) : Result History := do
  let entries ← modifyFirst (fun e => e.id.isEqual id)
    (fun e => do
      let has ← tag.isIn e.tags
      if has then .ok e
      else
        match e.tags with
        | .list tags => .ok { e with tags := .list (tags ++ [tag]) }
        | other => misused (.noAttribute other.kindName "append"))
    h.entries
  .ok { h with entries }

/-- Take a tag off the first entry with an identifier. -/
def untag (h : History) (id tag : Value) : Result History := do
  let entries ← modifyFirst (fun e => e.id.isEqual id)
    (fun e => do
      let tags ← e.tags.items
      .ok { e with tags := .list (tags.filter fun t => !t.isEqual tag) })
    h.entries
  .ok { h with entries }

/-- The stored form. -/
def toValue (h : History) : Result Value := (h.entries.mapM HistoryEntry.toValue).map .list

end History

end HttpWorkbench
