/-! Options on a command line. A long option has its value after an equals sign or in the
next argument, a short one also right behind its letter. A value of its own argument does
not begin with a dash, unless it is the dash alone. Faults and requests that end the
reading count in the order of the arguments. -/
namespace AddressPool.CommandLine

inductive Stop where
  | refused
  | version
  deriving DecidableEq, Repr

inductive Effect (τ : Type) where
  | flag (set : τ → Option τ)
  | value (set : String → τ → Option τ)
  | version

structure Rule (τ : Type) where
  name : String
  letter : Option Char
  effect : Effect τ

variable {τ : Type}

def accept : Option τ → Except Stop τ
  | some found => .ok found
  | none => .error .refused

abbrev Met (τ : Type) := Except Stop (τ × Option (String → τ → Option τ))

def meet (rule : Option (Rule τ)) (attached : Option String) (found : τ) : Met τ :=
  match rule.map Rule.effect, attached with
  | none, _ => .error .refused
  | some .version, none => .error .version
  | some .version, some _ => .error .refused
  | some (.flag set), none => (accept (set found)).map (·, none)
  | some (.flag _), some _ => .error .refused
  | some (.value set), none => .ok (found, some set)
  | some (.value set), some text => (accept (set text found)).map (·, none)

def meetLong (rules : List (Rule τ)) (body : List Char) (found : τ) : Met τ :=
  let name := body.takeWhile (· != '=')
  let attached := match body.dropWhile (· != '=') with
    | [] => none
    | _ :: value => some (String.ofList value)
  meet (rules.find? fun rule => rule.name.toList == name) attached found

def meetShort (rules : List (Rule τ)) : List Char → τ → Met τ
  | [], found => .ok (found, none)
  | letter :: rest, found =>
      match rules.find? fun rule => rule.letter == some letter with
      | none => .error .refused
      | some rule =>
          match rule.effect with
          | .version => .error .version
          | .flag set =>
              match set found with
              | some found => meetShort rules rest found
              | none => .error .refused
          | .value set =>
              match rest with
              | [] => .ok (found, some set)
              | '=' :: value => (accept (set (String.ofList value) found)).map (·, none)
              | value => (accept (set (String.ofList value) found)).map (·, none)

def readFrom (rules : List (Rule τ)) (isCommand : String → Bool)
    (awaited : Option (String → τ → Option τ)) :
    List String → τ → Except Stop (τ × Option (String × List String))
  | [], found =>
      match awaited with
      | none => .ok (found, none)
      | some _ => .error .refused
  | argument :: rest, found =>
      match awaited, argument.toList with
      | none, '-' :: '-' :: [] => if rest = [] then .ok (found, none) else .error .refused
      | some _, '-' :: _ :: _ => .error .refused
      | none, '-' :: '-' :: body =>
          match meetLong rules body found with
          | .error stop => .error stop
          | .ok (found, awaited) => readFrom rules isCommand awaited rest found
      | none, '-' :: letter :: letters =>
          match meetShort rules (letter :: letters) found with
          | .error stop => .error stop
          | .ok (found, awaited) => readFrom rules isCommand awaited rest found
      | some set, _ =>
          match set argument found with
          | none => .error .refused
          | some found => readFrom rules isCommand none rest found
      | none, _ =>
          if isCommand argument then .ok (found, some (argument, rest)) else .error .refused

def read (rules : List (Rule τ)) (isCommand : String → Bool) (arguments : List String)
    (found : τ) : Except Stop (τ × Option (String × List String)) :=
  readFrom rules isCommand none arguments found

end AddressPool.CommandLine
