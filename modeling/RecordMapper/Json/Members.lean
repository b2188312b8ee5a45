import RecordMapper.Json.Reader
/-!
Reading an object of which some members are wanted. The others are passed over, and of those only
the form counts: their numbers may be beyond the range, their strings may spell half characters, and
they may nest to any depth.
-/

namespace RecordMapper.Json

def passNumber? : List Char → Option (List Char)
  | '-' :: text => (numberLiteral? true text).map (·.2)
  | text => (numberLiteral? false text).map (·.2)

mutual

/-- Passes over a value. -/
def passValue? : Nat → List Char → Option (List Char)
  | 0, _ => none
  | fuel + 1, text =>
    match skipSpace text with
    | [] => none
    | '"' :: rest => (units? rest).map (·.2)
    | '[' :: rest =>
      match skipSpace rest with
      | ']' :: rest => some rest
      | rest => passItems? fuel rest
    | c :: rest =>
      if c = openBrace then
        match skipSpace rest with
        | d :: rest' => if d = closeBrace then some rest' else passMembers? fuel rest
        | [] => none
      else if c = 'n' then (word? "null".toList .null (c :: rest)).map (·.2)
      else if c = 't' then (word? "true".toList .null (c :: rest)).map (·.2)
      else if c = 'f' then (word? "false".toList .null (c :: rest)).map (·.2)
      else passNumber? (c :: rest)

/-- Passes over the items of an array that has some, and the closing bracket. -/
def passItems? : Nat → List Char → Option (List Char)
  | 0, _ => none
  | fuel + 1, text => do
    match skipSpace (← passValue? fuel text) with
    | ']' :: rest => some rest
    | ',' :: rest => passItems? fuel rest
    | _ => none

/-- Passes over the members of an object that has some, and the closing brace. -/
def passMembers? : Nat → List Char → Option (List Char)
  | 0, _ => none
  | fuel + 1, text =>
    match skipSpace text with
    | '"' :: rest => do
      let (_, rest) ← units? rest
      match skipSpace rest with
      | ':' :: rest =>
        match skipSpace (← passValue? fuel rest) with
        | [] => none
        | c :: rest =>
          if c = closeBrace then some rest
          else if c = ',' then passMembers? fuel rest
          else none
      | _ => none
    | _ => none

end

/-- Reads the members of an object that has some, and the closing brace. Those whose names are not
among `names` are passed over. -/
def wantedFrom? (names : List String) : Nat → List Char → Option (Members × List Char)
  | 0, _ => none
  | fuel + 1, text => do
    let (name, rest) ← memberName? text
    let (found, rest) ←
      if name ∈ names then (value? fuel 126 rest).map fun (v, rest) => ([(name, v)], rest)
      else (passValue? fuel rest).map fun rest => ([], rest)
    match skipSpace rest with
    | [] => none
    | c :: rest =>
      if c = closeBrace then some (found, rest)
      else if c = ',' then
        let (more, rest) ← wantedFrom? names fuel rest
        some (found ++ more, rest)
      else none

/-- Reads an object. -/
def wantedIn? (names : List String) (fuel : Nat) : List Char → Option (Members × List Char)
  | [] => none
  | c :: rest =>
    if c = openBrace then
      match skipSpace rest with
      | [] => none
      | d :: rest' => if d = closeBrace then some ([], rest') else wantedFrom? names fuel rest
    else none

/-- Reads a whole text that is an object, and keeps the members with one of the names. -/
def wanted? (names : List String) (text : String) : Option Members :=
  let cs := text.toList
  match wantedIn? names (2 * cs.length + 2) (skipSpace cs) with
  | some (members, rest) => if (skipSpace rest).isEmpty then some members else none
  | none => none

end RecordMapper.Json
