import Mathlib.Algebra.Order.Ring.Int

/-!
# ini-file: the text of a file in memory

`c_ini_file` keeps the file as one NUL-terminated string in a buffer of `MAX_FILE_BUF_SIZE`
bytes. Reads parse it from its start; a write edits it in place, moving what is behind, and
then writes the whole string to the file.
-/

namespace Taomee.IniFile

def MAX_FILE_BUF_SIZE : Nat := 1024 * 1024

inductive Errno where
  | success | parameter | openFile | writeFile | bufOverflow | notInited | keyNotFound
  | illegalFormat
  deriving DecidableEq

/-! ## Characters -/

def newline (c : UInt8) : Bool := c = 10 || c = 13

def endOfString (c : UInt8) : Bool := c = 0

def leftBrace (c : UInt8) : Bool := c = 91

def isRightBrace (c : UInt8) : Bool := c = 93

def isSpace (c : UInt8) : Bool := c = 32 || c = 9

/-- `isspace` of the C locale. -/
def isspace (c : UInt8) : Bool := c = 32 || (9 ≤ c && c ≤ 13)

/-- `=` -/
def equals : UInt8 := 61

/-- `:`, which starts a comment. -/
def colon : UInt8 := 58

/-- `\n` -/
def lineFeed : UInt8 := 10

/-! ## Parsing -/

/-- `while (goes(p[i])) i++;` -/
def scan (goes : UInt8 → Bool) (p : Int → UInt8) : Nat → Nat → Option Nat
  | 0, _ => none
  | fuel + 1, i => if goes (p i) then scan goes p fuel (i + 1) else some i

/-- A loop that makes more steps than the buffer has bytes has left it. -/
def steps : Nat := MAX_FILE_BUF_SIZE + 1

/-- The first loop of `trim_token`, with as many steps as there are between the two ends. -/
def trimStart (p : Int → UInt8) : Nat → Nat → Nat
  | 0, s => s
  | n + 1, s => if isSpace (p s) then trimStart p n (s + 1) else s

/-- The second loop of `trim_token`. -/
def trimStop (p : Int → UInt8) : Nat → Nat → Nat
  | 0, e => e
  | n + 1, e => if isSpace (p e) then trimStop p n (e - 1) else e

/-- The first and the last position of a token; an empty one stops before it starts. -/
structure Span where
  start : Nat
  stop : Nat
  deriving DecidableEq

def Span.length (span : Span) : Nat := span.stop + 1 - span.start

/-- `trim_token` -/
def trimToken (p : Int → UInt8) (s e : Nat) : Span :=
  let s := trimStart p (e - s) s
  ⟨s, trimStop p (e - s) e⟩

/-- `strncmp(p + s, token, strlen(token)) == 0` -/
def sameBytes (p : Int → UInt8) : Nat → List UInt8 → Bool
  | _, [] => true
  | s, c :: rest => p s = c && sameBytes p (s + 1) rest

/-- The comparison of a span with a section or a key. -/
def spanIs (p : Int → UInt8) (span : Span) (token : List UInt8) : Bool :=
  token.length = span.length && sameBytes p span.start token

/-- `while (j < i && p[j] != '=') { j++; if ('=' == p[j]) … }`: where the body is entered. The
first argument is `i - j`. -/
def findEquals (p : Int → UInt8) : Nat → Nat → Option Nat
  | 0, _ => none
  | n + 1, j =>
    if p j = equals then none
    else if p (j + 1 : Nat) = equals then some (j + 1)
    else findEquals p n (j + 1)

structure Entry where
  key : Span
  value : Span
  deriving DecidableEq

/-- The key and the value in the line from `i` up to `lineEnd`, if it has this key. -/
def lineEntry (p : Int → UInt8) (key : List UInt8) (i lineEnd : Nat) : Option Entry :=
  if p i = colon then none
  else
    match findEquals p (lineEnd - i) i with
    | none => none
    | some j =>
      let span := trimToken p i (j - 1)
      if spanIs p span key then some ⟨span, trimToken p (j + 1) (lineEnd - 1)⟩ else none

/-- How the lines of a section end. -/
inductive Lines where
  | found (entry : Entry)
  | ended (i : Nat)
  deriving DecidableEq

/-- The inner loop of `parse_file`: the lines from `i` up to the next section or the end. -/
def lineLoop (p : Int → UInt8) (key : List UInt8) : Nat → Nat → Option Lines
  | 0, _ => none
  | fuel + 1, i =>
    if newline (p (i - 1)) && leftBrace (p i) || endOfString (p i) then some (.ended i)
    else
      match scan (fun c => !newline c && !endOfString c) p steps i with
      | none => none
      | some lineEnd =>
        match lineEntry p key i lineEnd with
        | some entry => some (.found entry)
        | none => lineLoop p key fuel (lineEnd + 1)

/-- What `parse_file` stores through its pointers; -1 is `none`, and it returns 0 when the entry
is there. The stop of the section is the `i` behind its header. -/
structure Parsed where
  sec : Option Span
  entry : Option Entry
  deriving DecidableEq

/-- The outer loop of `parse_file`. -/
def parseLoop (p : Int → UInt8) (sect key : List UInt8) : Nat → Nat → Option Span → Option Parsed
  | 0, _, _ => none
  | fuel + 1, i, found =>
    if endOfString (p i) then some ⟨found, none⟩
    else if i = 0 || newline (p (i - 1)) then
      match scan isspace p steps i with
      | none => none
      | some i =>
        if leftBrace (p i) then
          match scan (fun c => !isRightBrace c && !endOfString c) p steps (i + 1) with
          | none => none
          | some brace =>
            if spanIs p (trimToken p (i + 1) (brace - 1)) sect then
              match scan isspace p steps (brace + 1) with
              | none => none
              | some body =>
                let found := some ⟨i + 1, body⟩
                match lineLoop p key steps body with
                | none => none
                | some (.found entry) => some ⟨found, some entry⟩
                | some (.ended i) => parseLoop p sect key fuel i found
            else parseLoop p sect key fuel brace found
        else parseLoop p sect key fuel (i + 1) found
    else parseLoop p sect key fuel (i + 1) found

/-- `parse_file` -/
def parseFile (p : Int → UInt8) (sect key : List UInt8) : Option Parsed :=
  parseLoop p sect key steps 0 none

/-! ## The buffer -/

/-- The bytes at and around `m_file_buf`, and whether one outside of it was written. -/
structure Buffer where
  cells : Int → UInt8
  overrun : Bool

namespace Buffer

/-- `m_file_buf[idx] = c` -/
def store (b : Buffer) (idx : Int) (c : UInt8) : Buffer :=
  ⟨Function.update b.cells idx c, b.overrun || idx < 0 || MAX_FILE_BUF_SIZE ≤ idx⟩

/-- `sprintf` of a text to `m_file_buf + idx`. -/
def print (b : Buffer) (idx : Int) : List UInt8 → Buffer
  | [] => b.store idx 0
  | c :: rest => (b.store idx c).print (idx + 1) rest

/-- `for (; idx < …; idx++) m_file_buf[idx] = byte` for so many steps. -/
def upward (byte : Buffer → Int → UInt8) : Nat → Int → Buffer → Buffer
  | 0, _, b => b
  | n + 1, idx, b => upward byte n (idx + 1) (b.store idx (byte b idx))

/-- `for (; idx >= …; idx--) m_file_buf[idx] = byte` for so many steps. -/
def downward (byte : Buffer → Int → UInt8) : Nat → Int → Buffer → Buffer
  | 0, _, b => b
  | n + 1, idx, b => downward byte n (idx - 1) (b.store idx (byte b idx))

/-- `for (idx = start; idx < stop; idx++) m_file_buf[idx] = text[idx - base];` -/
def fill (b : Buffer) (start stop base : Int) (text : List UInt8) : Buffer :=
  upward (fun _ idx => text.getD (idx - base).toNat 0) (stop - start).toNat start b

/-- `for (idx = start; idx <= stop; idx++) m_file_buf[idx] = m_file_buf[idx - len];` -/
def moveForward (b : Buffer) (start stop len : Int) : Buffer :=
  upward (fun b idx => b.cells (idx - len)) (stop + 1 - start).toNat start b

/-- `for (idx = start; idx >= stop; idx--) m_file_buf[idx] = m_file_buf[idx - len];` -/
def moveBackward (b : Buffer) (start stop len : Int) : Buffer :=
  downward (fun b idx => b.cells (idx - len)) (start + 1 - stop).toNat start b

end Buffer

/-! ## The object -/

/-- `c_ini_file`; `inited` says that `m_file_buf` is not null. -/
structure CIniFile where
  inited : Bool
  buf : Buffer
  mFileSize : Nat
  mErrno : Errno

/-- A number as an `int`. -/
def int (n : Int) : Int := Int.bmod n (2 ^ 32)

/-- `(int)strlen(text)` -/
def intLen (text : List UInt8) : Int := int text.length

/-- `[section]` and its first line. -/
def sectionText (sect key value : List UInt8) : List UInt8 :=
  [91] ++ sect ++ [93, lineFeed] ++ key ++ [equals] ++ value ++ [lineFeed]

namespace CIniFile

/-- The section is not there: it goes to the end of the file. -/
def addSection (f : CIniFile) (sect key value : List UInt8) : Except Errno Buffer :=
  if int (f.mFileSize + intLen sect + intLen key + intLen value + 6) > MAX_FILE_BUF_SIZE then
    .error .bufOverflow
  else .ok (f.buf.print f.mFileSize ([lineFeed] ++ sectionText sect key value))

/-- The key is not there: it goes to the start of the section's lines. -/
def addKey (f : CIniFile) (secE : Nat) (key value : List UInt8) : Except Errno Buffer :=
  let appendLen := int (intLen key + intLen value + 2)
  if int (f.mFileSize + appendLen) > MAX_FILE_BUF_SIZE then .error .bufOverflow
  else
    let b := f.buf.moveBackward (f.mFileSize + appendLen) (secE + appendLen) appendLen
    let b := b.fill secE (secE + intLen key) secE key
    let idx := secE + max 0 (intLen key)
    let b := b.store idx equals
    let b := b.fill (idx + 1) (secE + intLen key + intLen value + 1) (secE + intLen key + 1) value
    let idx := max (idx + 1) (secE + intLen key + intLen value + 1)
    .ok (b.store idx lineFeed)

/-- The value is replaced. -/
def setValue (f : CIniFile) (old : Span) (value : List UInt8) : Except Errno Buffer :=
  let appendLen := int (intLen value - old.stop + old.start - 1)
  if int (f.mFileSize + appendLen) > MAX_FILE_BUF_SIZE then .error .bufOverflow
  else
    let b :=
      if appendLen ≤ 0 then
        f.buf.moveForward (old.stop + appendLen + 1) (f.mFileSize + appendLen) appendLen
      else f.buf.moveBackward (f.mFileSize + appendLen) (old.stop + appendLen + 1) appendLen
    .ok (b.fill old.start (old.start + intLen value) old.start value)

/-- The part of `write_string` between the checks of its arguments and `fopen`. -/
def edit (f : CIniFile) (sect key value : List UInt8) : Option (Except Errno Buffer) :=
  if f.mFileSize = 0 then some (.ok (f.buf.print 0 (sectionText sect key value)))
  else
    match parseFile f.buf.cells sect key with
    | none => none
    | some ⟨none, _⟩ => some (f.addSection sect key value)
    | some ⟨some sec, none⟩ => some (f.addKey sec.stop key value)
    | some ⟨some _, some entry⟩ => some (f.setValue entry.value value)

def fail (f : CIniFile) (errno : Errno) : Int × CIniFile := (-1, { f with mErrno := errno })

/-- `write_string` from `fopen` on; the answers say whether `fopen` and `fputs` succeed. -/
def save (f : CIniFile) (fopenOk fputsOk : Bool) : Option (Int × CIniFile) :=
  if !fopenOk then some (f.fail .openFile)
  else if !fputsOk then some (f.fail .writeFile)
  else
    match scan (fun c => !endOfString c) f.buf.cells steps 0 with
    | none => none
    | some size => some (0, { f with mFileSize := size, mErrno := .success })

/-- What follows an edit. -/
def finish (f : CIniFile) (edited : Option (Except Errno Buffer)) (fopenOk fputsOk : Bool) :
    Option (Int × CIniFile) :=
  match edited with
  | none => none
  | some (.error errno) => some (f.fail errno)
  | some (.ok buf) => { f with buf := buf }.save fopenOk fputsOk

/-- `write_string`; `none` is a null pointer. -/
def writeString (f : CIniFile) (sect key value : Option (List UInt8)) (fopenOk fputsOk : Bool) :
    Option (Int × CIniFile) :=
  if !f.inited then some (f.fail .notInited)
  else
    match sect, key, value with
    | some sect, some key, some value =>
      if intLen sect = 0 ∨ intLen key = 0 ∨ intLen value = 0 then some (f.fail .parameter)
      else f.finish (f.edit sect key value) fopenOk fputsOk
    | _, _, _ => some (f.fail .parameter)

/-- The return value of `read_string` and the bytes it leaves in the caller's buffer. -/
structure Reply where
  ret : Int
  value : List UInt8
  deriving DecidableEq

/-- `strncpy(value, text, size)` -/
def strncpy (text : List UInt8) (size : Nat) : List UInt8 :=
  text.take size ++ List.replicate (size - text.length) 0

/-- What `read_string` does without an entry. -/
def orDefault (f : CIniFile) (old : List UInt8) (default : Option (List UInt8)) (errno : Errno) :
    Reply × CIniFile :=
  match default with
  | some default => (⟨0, strncpy default old.length⟩, { f with mErrno := .success })
  | none => (⟨-1, old⟩, { f with mErrno := errno })

/-- `read_string` into a buffer that holds `old`; `none` is a null pointer. -/
def readString (f : CIniFile) (sect key : Option (List UInt8)) (old : Option (List UInt8))
    (default : Option (List UInt8)) : Option (Reply × CIniFile) :=
  match sect, key, old with
  | some sect, some key, some old =>
    if sect.length = 0 ∨ key.length = 0 ∨ old.length = 0 then
      some (⟨-1, old⟩, { f with mErrno := .parameter })
    else if !f.inited then some (f.orDefault old default .notInited)
    else
      match parseFile f.buf.cells sect key with
      | none => none
      | some ⟨_, none⟩ => some (f.orDefault old default .keyNotFound)
      | some ⟨_, some entry⟩ =>
        let cpcount := min entry.value.length (old.length - 1)
        let bytes := (List.range cpcount).map fun step : Nat => f.buf.cells (entry.value.start + step)
        some (⟨0, strncpy bytes old.length⟩, { f with mErrno := .success })
  | _, _, old => some (⟨-1, old.getD []⟩, { f with mErrno := .parameter })

/-- The loop of `load_ini_file`: a byte that is `(char)EOF` ends the file. -/
def loadLoop (b : Buffer) (i : Nat) : List UInt8 → Except Buffer (Buffer × Nat)
  | [] => .ok (b.store i 255, i)
  | c :: rest =>
    let b := b.store i c
    if c = 255 then .ok (b, i)
    else if i + 1 ≥ MAX_FILE_BUF_SIZE then .error b
    else loadLoop b (i + 1) rest

/-- `load_ini_file`; `none` is a file that cannot be opened. -/
def loadIniFile (f : CIniFile) (file : Option (List UInt8)) : Int × CIniFile :=
  match file with
  | none => (0, { f with buf := f.buf.store 0 0, mFileSize := 0 })
  | some bytes =>
    match loadLoop f.buf 0 bytes with
    | .error buf => (-1, { f with buf := buf, mErrno := .bufOverflow })
    | .ok (buf, i) => (0, { f with buf := buf.store i 0, mFileSize := i })

end CIniFile

end Taomee.IniFile
