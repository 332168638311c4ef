import BoundedRecords.Text.Bytes

/-! File paths as text: components divided by slashes. These operations look at the text only and at
no file. -/
namespace BoundedRecords.Path

def slash : UInt8 := 0x2F
def dot : Bytes := [0x2E]
def dotDot : Bytes := [0x2E, 0x2E]

def isAbsolute (p : Bytes) : Bool := p.head? == some slash

def components (p : Bytes) : List Bytes := (Bytes.splitOn slash p).filter (!·.isEmpty)

/-- Takes one component after those in `done`, latest first: a dot stays, two dots go back, but not
above the root. -/
def cleanStep (rooted : Bool) (done : List Bytes) (c : Bytes) : List Bytes :=
  if c == dot then done
  else if c == dotDot then
    match done with
    | [] => if rooted then [] else [c]
    | last :: before => if last == dotDot then c :: done else before
  else c :: done

/-- The shortest path of the same meaning. -/
def clean (p : Bytes) : Bytes :=
  let rooted := isAbsolute p
  let text := Bytes.join [slash] ((components p).foldl (cleanStep rooted) []).reverse
  if rooted then slash :: text else if text.isEmpty then dot else text

def join (base p : Bytes) : Bytes := clean (base ++ slash :: p)

/-- The path up to the last slash. -/
def parent (p : Bytes) : Bytes := clean (p.reverse.dropWhile (· != slash)).reverse

end BoundedRecords.Path
