import RecordMapper.Derive.Peek
/-!
Readers take tokens off the front of a list. A reader tells what it has found, which tokens are to
be written for it, and which are left. What is written is most often what was taken.
-/

namespace RecordMapper.Derive

/-- What a reader has found. -/
structure Reading (α : Type) where
  value : α
  written : List Token
  rest : List Token

/-- Gives nothing where the tokens do not have the form that is asked for. -/
def Reader (α : Type) : Type := List Token → Option (Reading α)

namespace Reader

variable {α β σ : Type}

instance : Monad Reader where
  pure value := fun tokens => some ⟨value, [], tokens⟩
  bind reader next := fun tokens =>
    match reader tokens with
    | none => none
    | some first =>
      match next first.value first.rest with
      | none => none
      | some second => some ⟨second.value, first.written ++ second.written, second.rest⟩

theorem pure_apply (value : α) (tokens : List Token) :
    (pure value : Reader α) tokens = some ⟨value, [], tokens⟩ := rfl

/-- What comes after a reader goes on with what it has left, and writes after it. -/
theorem bind_apply (reader : Reader α) (next : α → Reader β) (tokens : List Token) :
    (reader >>= next) tokens =
      (reader tokens).bind fun first =>
        (next first.value first.rest).map fun second =>
          ⟨second.value, first.written ++ second.written, second.rest⟩ := by
  show (match reader tokens with | none => none | some first => _) = _
  cases reader tokens with
  | none => rfl
  | some first =>
    show (match next first.value first.rest with | none => none | some second => _) = _
    cases h : next first.value first.rest <;> simp [h]

theorem bind_pure_self (reader : Reader α) : (reader >>= fun value => pure value) = reader := by
  funext tokens
  rw [bind_apply]
  cases reader tokens <;> simp [pure_apply]

theorem pure_bind_self (value : α) (next : α → Reader β) : (pure value >>= next) = next value := by
  funext tokens
  rw [bind_apply, pure_apply]
  cases h : next value tokens <;> simp [h]

theorem bind_bind (reader : Reader α) (next : α → Reader β) (last : β → Reader σ) :
    (reader >>= next >>= last) = (reader >>= fun value => next value >>= last) := by
  funext tokens
  simp only [bind_apply]
  cases reader tokens with
  | none => rfl
  | some first =>
    cases h : next first.value first.rest with
    | none => simp [h]
    | some second => cases hl : last second.value second.rest <;> simp [h, hl]

instance : LawfulMonad Reader := LawfulMonad.mk' Reader bind_pure_self pure_bind_self bind_bind

def fail : Reader α := fun _ => none

/-- The tokens ahead. None is taken. -/
def look : Reader (List Token) := fun tokens => some ⟨tokens, [], tokens⟩

/-- Writes tokens that are not taken. -/
def write (written : List Token) : Reader Unit := fun tokens => some ⟨(), written, tokens⟩

/-- Takes `size` tokens. -/
def take (size : Nat) : Reader Unit := fun tokens =>
  if size ≤ tokens.length then some ⟨(), tokens.take size, tokens.drop size⟩ else none

/-- Keeps back what would be written, for later or for never. -/
def captured (reader : Reader α) : Reader (α × List Token) := fun tokens =>
  (reader tokens).map fun found => ⟨(found.value, found.written), [], found.rest⟩

/-- Tells what is written. -/
def noted (reader : Reader α) : Reader (α × List Token) := fun tokens =>
  (reader tokens).map fun found => ⟨(found.value, found.written), found.written, found.rest⟩

/-- Writes the tokens just as they were taken, if the value asks for that. -/
def asTakenWhen (raw : α → Bool) (reader : Reader α) : Reader α := fun tokens =>
  (reader tokens).map fun found =>
    if raw found.value then
      { found with written := tokens.take (tokens.length - found.rest.length) }
    else found

/-- Takes nothing where the reader does not apply. -/
def attempt (reader : Reader α) : Reader (Option α) := fun tokens =>
  match reader tokens with
  | some found => some { found with value := some found.value }
  | none => some ⟨none, [], tokens⟩

/-- Step after step, at most `bound` of them. Each tells whether another one follows. -/
def iterateUpTo (step : σ → Reader (σ × Bool)) : Nat → σ → Reader σ
  | 0, _ => fail
  | bound + 1, state => do
    let (state, more) ← step state
    if more then iterateUpTo step bound state else return state

/-- Step after step. Each but the last takes a token. -/
def iterate (step : σ → Reader (σ × Bool)) (state : σ) : Reader σ := do
  iterateUpTo step ((← look).length + 1) state

/-- The same step again, while it says so. -/
def repeated (step : Reader Bool) : Reader Unit :=
  iterate (fun _ => do return ((), ← step)) ()

/-- The same reader again, to the end of the tokens. -/
def toEnd (reader : Reader Unit) : Reader Unit := repeated do
  if (← look).isEmpty then return false
  reader
  return true

def mark (text : String) : Reader Unit := do
  if atMark text (← look) then take text.length else fail

def word (text : String) : Reader Unit := do
  if atWord text (← look) then take 1 else fail

/-- Whether the mark is there. It is taken if so. -/
def optionalMark (text : String) : Reader Bool := do
  if atMark text (← look) then
    take text.length
    return true
  return false

/-- Whether the word is there. It is taken if so. -/
def optionalWord (text : String) : Reader Bool := do
  if atWord text (← look) then
    take 1
    return true
  return false

def anyWord : Reader Unit := do
  if atAnyWord (← look) then take 1 else fail

def name : Reader Unit := do
  if atName (← look) then take 1 else fail

def lifetime : Reader Unit := do
  if atLifetime (← look) then take 2 else fail

def optionalLifetime : Reader Unit := do
  if atLifetime (← look) then take 2

def literal : Reader Unit := do
  let tokens ← look
  if atLiteral tokens then take (if atMark "-" tokens then 2 else 1) else fail

/-- A group with whatever it holds. -/
def anyGroup : Reader Delimiter := do
  match ← look with
  | .group delimiter _ :: _ =>
    take 1
    return delimiter
  | _ => fail

/-- A group that the reader reads to the last token in it. -/
def inside (delimiter : Delimiter) (reader : Reader α) : Reader α
  | .group found body :: rest =>
    if found = delimiter then
      match reader body with
      | some ⟨value, written, []⟩ => some ⟨value, [.group delimiter written], rest⟩
      | _ => none
    else none
  | _ => none

/-- Items with commas between them, to the end of the tokens. A last comma may end them. -/
def listed (item : Reader Unit) : Reader Unit := repeated do
  if (← look).isEmpty then return false
  item
  if (← look).isEmpty then return false
  mark ","
  return true

/-- Items with plus signs between them, up to where `ends` holds, or to the first one that no plus
sign follows. Whether there is one. -/
def summed (ends : List Token → Bool) (item : Reader Unit) : Reader Bool :=
  iterate (fun found => do
    if ends (← look) then return (found, false)
    item
    return (true, ← optionalMark "+")) false

/-- A colon and what follows it. Nothing is written if nothing follows. -/
def afterColon (bounds : Reader Bool) : Reader Unit := do
  let (found, written) ← captured do
    if ← optionalMark ":" then bounds else return false
  if found then write written

/-- A list in angles, up to the closing one, in the order that it has. -/
def angled (item : Reader Unit) : Reader Unit := do
  mark "<"
  repeated do
    if atMark ">" (← look) then return false
    item
    if atMark ">" (← look) then return false
    mark ","
    return true
  mark ">"

/-- What stands in angles: the items that go first, and the others. -/
structure Sorted where
  first : List Token := []
  others : List Token := []
  /-- The last of the first has no comma after it. -/
  gap : Bool := false

def Sorted.add (s : Sorted) (first comma : Bool) (written : List Token) : Sorted :=
  if first then { s with first := s.first ++ written, gap := !comma }
  else { s with others := s.others ++ written }

def Sorted.written (s : Sorted) : List Token :=
  s.first ++ (if s.gap && !s.others.isEmpty then [.mark ',' false] else []) ++ s.others

/-- A list in angles whose items say whether they go before the others. They are written in that
order. Whether there is any. -/
def sortedAngled (item : Reader Bool) : Reader Bool := do
  mark "<"
  let sorted ← iterate (fun sorted => do
    if atMark ">" (← look) then return (sorted, false)
    let ((first, comma), written) ← captured do
      let first ← item
      if atMark ">" (← look) then return (first, false)
      mark ","
      return (first, true)
    return (Sorted.add sorted first comma written, comma)) {}
  write sorted.written
  mark ">"
  return !sorted.written.isEmpty

end Reader

end RecordMapper.Derive
