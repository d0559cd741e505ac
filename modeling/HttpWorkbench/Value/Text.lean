import HttpWorkbench.Text.Quoted
import HttpWorkbench.Value.Basic

/-!
# Values in words

How a value is shown. A text stands for itself at the top and is quoted inside another value;
everything else looks the same in both places, languages apart.
-/

namespace HttpWorkbench.Value

/-- Two texts with brackets around them. -/
private def between (left right content : Text) : Text := left ++ content ++ right

mutual

/-- The value inside another value. -/
def quoted : Value → Text
  | .null => "None"
  | .bool b => if b then "True" else "False"
  | .int n => intText n
  | .float x => x.text
  | .str s => Text.quoted s
  | .bytes b => Text.quotedBytes b
  | .list xs => between "[" "]" (Text.join ", " (quotedItems xs))
  | .map es => between "\x7b" "\x7d" (Text.join ", " (quotedEntries es))
  | .language l => "<TargetLanguage." ++ l.memberName ++ ": " ++ Text.quoted l.tag ++ ">"
  | .header k v => "Header(key=" ++ k.quoted ++ ", value=" ++ v.quoted ++ ")"
termination_by structural v => v

/-- The items of a list. -/
def quotedItems : List Value → List Text
  | [] => []
  | x :: xs => x.quoted :: quotedItems xs
termination_by structural xs => xs

/-- The entries of a map. -/
def quotedEntries : List (Value × Value) → List Text
  | [] => []
  | (k, v) :: es => (k.quoted ++ ": " ++ v.quoted) :: quotedEntries es
termination_by structural es => es

end

/-- The value by itself. -/
def text : Value → Text
  | .str s => s
  | .language l => "TargetLanguage." ++ l.memberName
  | v => v.quoted

@[simp] theorem text_str (s : Text) : (Value.str s).text = s := rfl

end HttpWorkbench.Value
