import HttpWorkbench.CommandLine.Grammar

/-!
# Words of a command line

Each word is an option, a plain word or the separator after which every word is plain. An option
can bring its argument along, after an equals sign or, when its name is one letter, directly; and
several one-letter flags can stand in one word. What follows a one-letter flag is read as further
options, also after an equals sign.
-/

namespace HttpWorkbench.CommandLine

/-- An option in a word, with what the word holds beyond the option's name. -/
structure OptionWord where
  spec : OptionSpec
  name : Text
  /-- The rest of the word, less an equals sign that leads it, if there is any. -/
  explicit : Option Text
  deriving DecidableEq, Repr

/-- What a word is. -/
inductive Role where
  | plain
  | separator
  | known (option : OptionWord)
  /-- It looks like an option, but there is none of that name. -/
  | unknown
  deriving DecidableEq, Repr

/-- A word and what it is. -/
structure Word where
  text : Text
  role : Role
  deriving DecidableEq, Repr

/-- Whether a word is a negative number, and so no option. -/
def isNegativeNumber (cs : Text) : Bool :=
  let isDigit (c : CodePoint) : Bool := (Text.digitValue? c).isSome
  let cs := if cs.getLast? = some '\n' then cs.dropLast else cs
  match cs with
  | .char '-' :: rest =>
    let fraction := (rest.dropWhile isDigit).drop 1
    (!rest.isEmpty && rest.all isDigit) ||
      (rest.dropWhile isDigit).head? == some '.' && !fraction.isEmpty && fraction.all isDigit
  | _ => false

/-- What stands before the first equals sign and, if there is one, what stands after it. -/
def cutAtEquals (cs : Text) : Text × Option Text :=
  if cs.contains '=' then
    let (before, after) := Text.cutAt '=' cs
    (before, some after)
  else (cs, none)

/-- The options that a word which is no full option name can mean. -/
def readings (g : Grammar) (word : Text) : List OptionWord :=
  match word with
  | .char '-' :: .char '-' :: _ =>
    let (beginning, explicit) := cutAtEquals word
    (g.startingWith beginning).map fun (name, spec) => ⟨spec, name, explicit⟩
  | _ =>
    g.names.filterMap fun (name, spec) =>
      if name = word.take 2 then some ⟨spec, name, some (word.drop 2)⟩
      else if word.isPrefixOf name then some ⟨spec, name, none⟩
      else none

/-- What a word before the separator is. -/
def roleOf (g : Grammar) (word : Text) : Except UsageFault Role :=
  if word.head? ≠ some '-' then .ok .plain
  else
    match g.option? word with
    | some spec => .ok (.known ⟨spec, word, none⟩)
    | none =>
      if word.length = 1 then .ok .plain
      else
        let (before, after) := cutAtEquals word
        match after, g.option? before with
        | some explicit, some spec => .ok (.known ⟨spec, before, some explicit⟩)
        | _, _ =>
          match readings g word with
          | [option] => .ok (.known option)
          | [] =>
            .ok (if isNegativeNumber word || word.contains ' ' then .plain else .unknown)
          | options => .error (.ambiguous word (options.map (·.name)))

/-- The words of a command line with what they are. -/
def classify (g : Grammar) : List Text → Except UsageFault (List Word)
  | [] => .ok []
  | word :: rest =>
    if word = "--" then .ok (⟨word, .separator⟩ :: rest.map fun w => ⟨w, .plain⟩)
    else do
      let role ← roleOf g word
      let words ← classify g rest
      .ok (⟨word, role⟩ :: words)

/-- An option that is taken, with its argument if it has one. -/
structure Taken where
  spec : OptionSpec
  argument : Option Text
  deriving DecidableEq, Repr

/-- What a word of options comes to: the options that have what they need, and the one at the end
that takes the next word, if there is one. -/
structure Cluster where
  taken : List Taken
  unfinished : Option OptionSpec
  deriving DecidableEq, Repr

/-- An option without anything more in its word. -/
def Cluster.atEnd (taken : List Taken) (spec : OptionSpec) : Cluster :=
  if spec.takesArgument then ⟨taken, some spec⟩ else ⟨taken ++ [⟨spec, none⟩], none⟩

/-- Whether an option's name is one letter. -/
def isShort (name : Text) : Bool := (name.drop 1).head? ≠ some '-'

/-- The option at the head of a word, and what follows it in the word: its argument, or one-letter
options after a one-letter flag. -/
def cluster (g : Grammar) (taken : List Taken) (spec : OptionSpec) (name : Text) :
    Text → Except UsageFault Cluster
  | [] =>
    if spec.takesArgument then .ok ⟨taken ++ [⟨spec, some ""⟩], none⟩
    else .error (.extraArgument spec.shownName "")
  | c :: rest =>
    let explicit := c :: rest
    let nextName : Text := ['-', c]
    if spec.takesArgument then .ok ⟨taken ++ [⟨spec, some explicit⟩], none⟩
    else
      match isShort name, g.option? nextName, rest with
      | true, some next, [] => .ok (.atEnd (taken ++ [⟨spec, none⟩]) next)
      | true, some next, rest => cluster g (taken ++ [⟨spec, none⟩]) next nextName rest
      | _, _, _ => .error (.extraArgument spec.shownName explicit)

/-- What a word that is an option comes to. -/
def OptionWord.expand (g : Grammar) (o : OptionWord) : Except UsageFault Cluster :=
  match o.explicit with
  | none => .ok (.atEnd [] o.spec)
  | some explicit => cluster g [] o.spec o.name explicit

end HttpWorkbench.CommandLine
