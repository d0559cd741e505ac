import HttpWorkbench.CommandLine.Words

/-!
# Reading a command line

The words of a command line are taken from left to right: options with their arguments, and
between them what may stand beside options. Words that nothing takes are collected, and refused
when everything has been read, those of the program before those of the command.
-/

namespace HttpWorkbench.CommandLine

/-- What has been read. -/
structure Reading where
  /-- Arguments under their keys, in the order in which they were given. -/
  values : List (Text × Argument)
  /-- Words that nothing took. -/
  leftover : List Text
  /-- The command that was named, with the words after its name. -/
  command : Option (Text × List Text)
  /-- Whether the place beside the options is taken. -/
  filled : Bool
  deriving DecidableEq, Repr

namespace Reading

/-- Nothing read. -/
def empty : Reading := ⟨[], [], none, false⟩

/-- An argument more. -/
def add (r : Reading) (key : Text) (argument : Argument) : Reading :=
  { r with values := r.values ++ [(key, argument)] }

/-- A word more that nothing takes. -/
def leave (r : Reading) (word : Text) : Reading := { r with leftover := r.leftover ++ [word] }

/-- The arguments under a key, in order. -/
def all (r : Reading) (key : Text) : List Argument :=
  (r.values.filter fun e => e.1 == key).map Prod.snd

/-- The last argument under a key. -/
def last? (r : Reading) (key : Text) : Option Argument := (r.all key).getLast?

/-- The last argument under a key, if it is a text. -/
def text? (r : Reading) (key : Text) : Option Text := (r.last? key).bind Argument.text?

/-- The last argument under a key as a value. -/
def value? (r : Reading) (key : Text) : Option Value := (r.last? key).map Argument.value

/-- Whether a flag was given. -/
def flag (r : Reading) (key : Text) : Bool := r.values.any fun e => e.1 == key

end Reading

/-- A text as an argument of the required form. -/
def Conversion.ofText (conversion : Conversion) (option given : Text) :
    Except UsageFault Argument :=
  match conversion with
  | .any => .ok (.text given)
  | .choice words =>
    let upper := Text.upper given
    if words.contains upper then .ok (.text upper) else .error (.badChoice option upper words)
  | .integer =>
    match TypedInteger.read? given with
    | some n => .ok (.number n)
    | none => .error (.badInteger option given)

/-- The argument of an option. The separator in place of an argument stands for none. -/
def Conversion.apply (conversion : Conversion) (option given : Text) :
    Except UsageFault Argument :=
  if given = "--" then .ok .emptied else conversion.ofText option given

/-- Take an option. -/
def Reading.take (r : Reading) (t : Taken) : Except Stop Reading :=
  match t.spec.kind with
  | .flag => .ok (r.add t.spec.key .present)
  | .help => .error .help
  | .version => .error .version
  | .argument conversion =>
    match conversion.apply t.spec.shownName (t.argument.getD "") with
    | .ok argument => .ok (r.add t.spec.key argument)
    | .error fault => .error (.fault fault)

/-- Take options one after the other. -/
def Reading.takeAll (r : Reading) (taken : List Taken) : Except Stop Reading :=
  taken.foldlM Reading.take r

/-- Take the name of a command and leave the other words to it. -/
def Reading.takeCommand (r : Reading) (names : List Text) (name : Text) (rest : List Text) :
    Except Stop Reading :=
  if names.contains name then .ok { r with command := some (name, rest) }
  else .error (.fault (.badChoice "command" name names))

/-- Read the words that are left. -/
def readWords (g : Grammar) (r : Reading) : List Word → Except Stop Reading
  | [] => .ok r
  | w :: rest =>
    match w.role with
    | .unknown => readWords g (r.leave w.text) rest
    | .known option =>
      match option.expand g with
      | .error fault => .error (.fault fault)
      | .ok ⟨taken, none⟩ => do
        let r ← r.takeAll taken
        readWords g r rest
      | .ok ⟨taken, some last⟩ =>
        match rest with
        | [] => .error (.fault (.missingArgument last.shownName))
        | next :: rest =>
          match next.role with
          | .plain => do
            let r ← r.takeAll (taken ++ [⟨last, some next.text⟩])
            readWords g r rest
          | _ => .error (.fault (.missingArgument last.shownName))
    | role =>
      match g.positional, r.filled with
      | .one key, false =>
        match role, rest with
        | .separator, next :: rest =>
          readWords g { r.add key (.text next.text) with filled := true } rest
        | .separator, [] => .ok { r with filled := true }
        | _, ⟨_, .separator⟩ :: rest =>
          readWords g { r.add key (.text w.text) with filled := true } rest
        | _, rest => readWords g { r.add key (.text w.text) with filled := true } rest
      | .command names, _ =>
        if role = .separator ∧ rest = [] then readWords g (r.leave w.text) rest
        else r.takeCommand names w.text (rest.map Word.text)
      | _, _ => readWords g (r.leave w.text) rest

/-- Read the arguments of a command. -/
def Grammar.read (g : Grammar) (arguments : List Text) : Except Stop Reading :=
  match classify g arguments with
  | .error fault => .error (.fault fault)
  | .ok words => readWords g .empty words

end HttpWorkbench.CommandLine
