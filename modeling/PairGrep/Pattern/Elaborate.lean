import PairGrep.Pattern.Expr
import PairGrep.Pattern.Tree
import PairGrep.Pattern.Unicode.Folding
import PairGrep.Pattern.Unicode.Query

/-!
# Flags and classes

The expression of a pattern tree. Flags reach from where they are set to the end of the group, also
into later alternatives. Where Unicode is off a class holds bytes, and none may go beyond ASCII,
since a match has to be text.
-/

namespace PairGrep.Pattern

structure Flags where
  caseInsensitive : Bool
  multiLine : Bool
  dotAll : Bool
  swapGreed : Bool
  unicode : Bool
  crlf : Bool
  deriving DecidableEq, Repr

namespace Flags

def initial : Flags := ⟨false, false, false, false, true, false⟩

def set (f : Flags) (flag : Flag) (value : Bool) : Flags :=
  match flag with
  | .caseInsensitive => { f with caseInsensitive := value }
  | .multiLine => { f with multiLine := value }
  | .dotAll => { f with dotAll := value }
  | .swapGreed => { f with swapGreed := value }
  | .unicode => { f with unicode := value }
  | .crlf => { f with crlf := value }
  | .verbose => f

def apply (f : Flags) (change : FlagChange) : Flags :=
  change.foldl (fun f p => f.set p.1 p.2) f

def foldSet (f : Flags) (s : CharSet) : CharSet :=
  if f.caseInsensitive then (if f.unicode then Unicode.fold s else s.foldAscii) else s

def negateSet (f : Flags) (negated : Bool) (s : CharSet) : CharSet :=
  if negated then (if f.unicode then s.complement else s.byteComplement) else s

/-- A class after case and negation; of bytes it must have ASCII only. -/
def finishClass (f : Flags) (negated : Bool) (s : CharSet) : Except Error CharSet :=
  let s := f.negateSet negated (f.foldSet s)
  if f.unicode || s.isAscii then .ok s else .error .invalidUtf8

end Flags

def AsciiClass.chars (name : AsciiClass) : CharSet :=
  .ofRanges (match name with
    | .alnum => [(48, 57), (65, 90), (97, 122)]
    | .alpha => [(65, 90), (97, 122)]
    | .ascii => [(0, 127)]
    | .blank => [(9, 9), (32, 32)]
    | .cntrl => [(0, 31), (127, 127)]
    | .digit => [(48, 57)]
    | .graph => [(33, 126)]
    | .lower => [(97, 122)]
    | .print => [(32, 126)]
    | .punct => [(33, 47), (58, 64), (91, 96), (123, 126)]
    | .space => [(9, 13), (32, 32)]
    | .upper => [(65, 90)]
    | .word => [(48, 57), (65, 90), (95, 95), (97, 122)]
    | .xdigit => [(48, 57), (65, 70), (97, 102)])

def ShortClass.chars (unicode : Bool) (name : ShortClass) : CharSet :=
  match name, unicode with
  | .digit, true => Unicode.digit
  | .space, true => Unicode.space
  | .word, true => Unicode.word
  | .digit, false => AsciiClass.digit.chars
  | .space, false => AsciiClass.space.chars
  | .word, false => AsciiClass.word.chars

namespace Elaborate

/-- A class with a letter. Without Unicode a negated one would hold bytes that are no text. -/
def short (f : Flags) (negated : Bool) (name : ShortClass) : Except Error CharSet :=
  let s := f.negateSet negated (name.chars f.unicode)
  if f.unicode || s.isAscii then .ok s else .error .invalidUtf8

def property (f : Flags) (q : PropertyQuery) : Except Error CharSet :=
  if f.unicode then do
    let s ← Unicode.query q
    return f.negateSet q.negated (f.foldSet s)
  else .error .unicodeOff

/-- The character of a literal. Without Unicode one that is written as a byte must be ASCII. -/
def char (f : Flags) (l : Literal) : Except Error Char :=
  if !f.unicode && l.asByte && 0x7F < l.char.toNat then .error .invalidUtf8 else .ok l.char

def classCode (f : Flags) (l : Literal) : Except Error Nat := do
  let c ← char f l
  if !f.unicode && 0x7F < c.toNat then throw .unicodeOff
  return c.toNat

def combine (kind : ClassOp) (s t : CharSet) : CharSet :=
  match kind with
  | .intersection => s.inter t
  | .difference => s.diff t
  | .symmetricDifference => s.symmDiff t

def inside (f : Flags) : ClassTree → Except Error CharSet
  | .empty => .ok .empty
  | .literal l => do
    let n ← classCode f l
    return .ofRanges [(n, n)]
  | .range lo hi => do
    let m ← classCode f lo
    let n ← classCode f hi
    return .ofRanges [(m, n)]
  | .ascii negated name => f.finishClass negated name.chars
  | .short negated name => short f negated name
  | .property q => property f q
  | .bracket negated tree => do f.finishClass negated (← inside f tree)
  | .union first rest => do
    let s ← inside f first
    let t ← inside f rest
    return s.union t
  | .op kind lhs rhs => do
    let s ← inside f lhs
    let t ← inside f rhs
    return combine kind (f.foldSet s) (f.foldSet t)

def literal (f : Flags) (l : Literal) : Except Error Expr := do
  let c ← char f l
  let single := CharSet.single c
  if f.caseInsensitive && (if f.unicode then Unicode.hasCase c else true) then
    return .set (f.foldSet single)
  return .set single

def dot (f : Flags) : Except Error Expr :=
  if !f.unicode then .error .invalidUtf8
  else if f.dotAll then .ok (.set .all)
  else if f.crlf then .ok (.set (CharSet.ofRanges [(10, 10), (13, 13)]).complement)
  else .ok (.set (CharSet.ofRanges [(10, 10)]).complement)

def anchor (f : Flags) : Anchor → Look
  | .lineStart => if f.multiLine then (if f.crlf then .crlfStart else .lineStart) else .textStart
  | .lineEnd => if f.multiLine then (if f.crlf then .crlfEnd else .lineEnd) else .textEnd
  | .textStart => .textStart
  | .textEnd => .textEnd
  | .boundary => .boundary f.unicode
  | .notBoundary => .notBoundary f.unicode
  | .wordStart => .wordStart f.unicode
  | .wordEnd => .wordEnd f.unicode
  | .wordStartHalf => .wordStartHalf f.unicode
  | .wordEndHalf => .wordEndHalf f.unicode

/-- The branches of a tree and the flags after it. A tree that is no alternatives has one branch. -/
def branches (f : Flags) : Tree → Except Error (List Expr × Flags)
  | .empty => .ok ([.empty], f)
  | .flags change => .ok ([.empty], f.apply change)
  | .literal l => do return ([← literal f l], f)
  | .dot => do return ([← dot f], f)
  | .anchor a => .ok ([.look (anchor f a)], f)
  | .short negated name => do return ([.set (← short f negated name)], f)
  | .property q => do return ([.set (← property f q)], f)
  | .bracket negated tree => do
    return ([.set (← f.finishClass negated (← inside f tree))], f)
  | .repeated min max greedy body => do
    let (bs, _) ← branches f body
    return ([.repetition min max (greedy != f.swapGreed) (.choice bs)], f)
  | .capture index body => do
    let (bs, _) ← branches f body
    return ([.capture index (.choice bs)], f)
  | .scope change body => do
    let (bs, _) ← branches (f.apply change) body
    return ([.choice bs], f)
  | .cat first rest => do
    let (bs, f) ← branches f first
    let (cs, f) ← branches f rest
    return ([.sequence (.choice bs) (.choice cs)], f)
  | .alt first rest => do
    let (bs, f) ← branches f first
    let (cs, f) ← branches f rest
    return (bs ++ cs, f)

end Elaborate

def Tree.elaborate (t : Tree) : Except Error Expr := do
  let (bs, _) ← Elaborate.branches .initial t
  return .choice bs

end PairGrep.Pattern
