import Revng.Support.Assert
import Revng.Support.StdString

set_option autoImplicit false

/-! # `Logger<X>` (`Debug.cpp`)

A `Logger<X>` collects a message in its `Buffer`; `flush` writes it to `dbg` and empties the buffer.
The first line of the message follows a header: when `-debug-location-max-length` is not `0`, a
location field `[file:line] ` padded to that length plus `3`; then a name field `[name] ` padded by
the longest logger name and twice the indentation. Every further line follows a padding of its own.
`indent`, `unindent` and `setIndentation` change `IndentLevel`, which is `static`: one counter for
every logger of an instantiation.

The arithmetic is the source's: `IndentLevel` and `MaxLocationLength` are `unsigned` (`UInt32`),
sizes and positions are `size_t` (`UInt64`), and `IndentLevel * 2` is computed in `unsigned` before
it is widened. The `do … while` loop of `flush` is not bounded by the code; it takes a `fuel`
argument, and `none` means the loop was still running when the fuel ran out. -/

namespace Revng

open StdString

/-- The process-wide settings `flush` reads. -/
structure LogConfig where
  /-- `MaxLocationLength`, the `cl::opt<unsigned>` `-debug-location-max-length`; `0` turns the
      location field off. -/
  maxLocationLength : UInt32
  /-- `MaxLoggerNameLength`, the `size_t` the registry keeps: the longest logger name. -/
  maxLoggerNameLength : UInt64
deriving DecidableEq, Repr

/-- `LogTerminator`: the file and the line a message was logged at. -/
structure LogTerminator where
  file : List Char
  line : Nat
deriving DecidableEq, Repr

/-- The fields of one `Logger<X>` that its methods read. -/
structure Logger where
  /-- The template argument `X`: a `Logger<false>` logs nothing. -/
  x : Bool
  enabled : Bool
  name : List Char
  /-- The contents of `Buffer`. -/
  buffer : List Char
deriving DecidableEq, Repr

namespace Logger

/-- `isEnabled()`: the test `flush` makes, `X && Enabled`. -/
def isEnabled (l : Logger) : Bool := l.x && l.enabled

/-! ## Indentation -/

/-- `indent(Level)`. -/
def indent (l : Logger) (level indentLevel : UInt32) : UInt32 :=
  if l.isEnabled then indentLevel + level else indentLevel

/-- `unindent(Level)`: `revng_assert(IndentLevel - Level >= 0)`, then the subtraction. The test
    compares an `unsigned` with `0`. -/
def unindent (l : Logger) (level indentLevel : UInt32) : Except Fault UInt32 :=
  if l.isEnabled then
    if 0 ≤ indentLevel - level then .ok (indentLevel - level)
    else .error (.assertion "IndentLevel - Level >= 0")
  else .ok indentLevel

/-- `setIndentation(Level)`. -/
def setIndentation (l : Logger) (level indentLevel : UInt32) : UInt32 :=
  if l.isEnabled then level else indentLevel

/-- One call on a logger of the instantiation, which shares its `IndentLevel` with every other. -/
inductive IndentCall where
  | indent (l : Logger) (level : UInt32)
  | unindent (l : Logger) (level : UInt32)
  | setIndentation (l : Logger) (level : UInt32)

/-- Make one call: the new `IndentLevel`, or the assertion it stops at. -/
def IndentCall.run : IndentCall → UInt32 → Except Fault UInt32
  | .indent l level, indentLevel => .ok (l.indent level indentLevel)
  | .unindent l level, indentLevel => l.unindent level indentLevel
  | .setIndentation l level, indentLevel => .ok (l.setIndentation level indentLevel)

/-- Make the calls `calls` in order, from `IndentLevel = indentLevel`. -/
def runCalls : List IndentCall → UInt32 → Except Fault UInt32
  | [], indentLevel => .ok indentLevel
  | call :: calls, indentLevel => call.run indentLevel >>= runCalls calls

/-! ## `flush` -/

/-- Lines 50–53: `Location.erase(0, LastSlash + 1)` when the path has a `/`. -/
def baseName (location : List Char) : List Char :=
  let lastSlash := rfind location '/'
  if lastSlash ≠ npos then erase location 0 (lastSlash + 1) else location

/-- Lines 48–61: `[`, the base name of the file cut to fit, `:` and the line, `] `, then padding.
    The first thing is `revng_assert(Suffix.size() < MaxLocationLength)`. -/
def locationField (maxLocationLength : UInt32) (lineInfo : LogTerminator) :
    Except Fault (List Char) :=
  let suffix := ':' :: (Nat.repr lineInfo.line).toList
  if size suffix < maxLocationLength.toUInt64 then
    let location := baseName lineInfo.file
    let m := maxLocationLength.toUInt64
    let location :=
      if size location > m - size suffix then erase location (m - size suffix) npos else location
    let pad := List.replicate (m - size location - size suffix).toNat ' '
    .ok ('[' :: location ++ suffix ++ "] ".toList ++ pad)
  else .error (.assertion "Suffix.size() < MaxLocationLength")

/-- Lines 47–62: the location field when `MaxLocationLength != 0`, else nothing. -/
def location (cfg : LogConfig) (lineInfo : LogTerminator) : Except Fault (List Char) :=
  if cfg.maxLocationLength ≠ 0 then locationField cfg.maxLocationLength lineInfo else .ok []

/-- Lines 64–65: `[`, the name, `] `, then padding by the longest name and the indentation. -/
def nameField (maxLoggerNameLength : UInt64) (name : List Char) (indentLevel : UInt32) :
    List Char :=
  '[' :: name ++ "] ".toList ++
    List.replicate (maxLoggerNameLength - size name + (indentLevel * 2).toUInt64).toNat ' '

/-- Lines 67–69: the buffer without its trailing newline, if it has one. -/
def dropTrailingNewline (data : List Char) : List Char :=
  if size data > 0 ∧ data.getLast? = some '\n' then resize data (size data - 1) else data

/-- Line 77: the padding of the lines after the first. -/
def continuationPad (maxLoggerNameLength : UInt64) (indentLevel : UInt32) : List Char :=
  List.replicate (3 + maxLoggerNameLength + (indentLevel * 2).toUInt64).toNat ' '

/-- The `do … while (End != npos)` loop, lines 78–82, from `End` at a delimiter: each round writes
    `pad`, the text up to the next delimiter or to the end, and a newline. -/
def continuationLines (data pad : List Char) : Nat → UInt64 → Option (List Char)
  | 0, _ => none
  | fuel + 1, end_ =>
    let start := end_ + 1
    let end_ := find data '\n' start
    let out := pad ++ substr data start (end_ - start) ++ ['\n']
    if end_ = npos then some out else (continuationLines data pad fuel end_).map (out ++ ·)

/-- `flush(LineInfo)`, with `IndentLevel` and what `dbg` holds so far: the logger with an empty
    buffer, and `dbg` with the message written. -/
def flush (cfg : LogConfig) (lineInfo : LogTerminator) (l : Logger) (indentLevel : UInt32)
    (dbg : List Char) (fuel : Nat) : Option (Except Fault (Logger × List Char)) :=
  if l.isEnabled then
    match location cfg lineInfo with
    | .error f => some (.error f)
    | .ok loc =>
      let data := dropTrailingNewline l.buffer
      let end_ := find data '\n' 0
      let first := substr data 0 end_ ++ ['\n']
      let rest : Option (List Char) :=
        if end_ ≠ npos then
          continuationLines data (continuationPad cfg.maxLoggerNameLength indentLevel) fuel end_
        else some []
      rest.map fun rest => .ok ({ l with buffer := [] },
        dbg ++ loc ++ nameField cfg.maxLoggerNameLength l.name indentLevel ++ first ++ rest)
  else some (.ok (l, dbg))

end Logger

end Revng
