/-
# Page tables

The pages that have content, by their addresses. A range of bytes is read and
written page by page; a byte is there if its page is.

Key definitions: `PageTable`, `PageTable.get?`, `PageTable.set`,
`PageTable.dropRange`, `PageTable.byte?`, `PageTable.read`, `PageTable.write`.
-/
import DemandPager.Bytes
import Std.Data.TreeMap

namespace DemandPager

/-- The pages that have content. -/
structure PageTable where
  pages : Std.TreeMap Nat Bytes := ∅
deriving Repr, Inhabited

def pageOf (pageSize address : Nat) : Nat := address - address % pageSize

/-- The pages of an aligned range. -/
def pagesIn (pageSize start len : Nat) : List Nat :=
  (List.range ((len + pageSize - 1) / pageSize)).map (start + · * pageSize)

/-- Content cut into `n` pages, the first of which lies at `start`. A page that the
content does not fill is filled with zeros. -/
def cutPages (pageSize : Nat) : (n : Nat) → (start : Nat) → Bytes → List (Nat × Bytes)
  | 0, _, _ => []
  | n + 1, start, content =>
    (start, Bytes.growTo (content.take pageSize) pageSize) ::
      cutPages pageSize n (start + pageSize) (content.drop pageSize)

namespace PageTable

def get? (t : PageTable) (page : Nat) : Option Bytes := t.pages[page]?

def contains (t : PageTable) (page : Nat) : Bool := t.pages.contains page

def set (t : PageTable) (page : Nat) (content : Bytes) : PageTable :=
  ⟨t.pages.insert page content⟩

def setAll (t : PageTable) (pages : List (Nat × Bytes)) : PageTable :=
  pages.foldl (fun t p => t.set p.1 p.2) t

/-- Drops the content of the pages that begin in a range. -/
def dropRange (t : PageTable) (start len : Nat) : PageTable :=
  ⟨t.pages.filter fun page _ => !(start ≤ page && page < start + len)⟩

def size (t : PageTable) : Nat := t.pages.size

/-- The byte at an address, if its page has content. -/
def byte? (t : PageTable) (pageSize address : Nat) : Option UInt8 :=
  (t.get? (pageOf pageSize address)).map fun content => content.getD (address % pageSize) 0

/-- Reads a range that lies in `n` pages; an address that has no content is the
error. -/
def readPages (t : PageTable) (pageSize : Nat) :
    (n : Nat) → (address len : Nat) → Except Nat Bytes
  | 0, _, _ => .ok []
  | n + 1, address, len =>
    if len = 0 then
      .ok []
    else
      match t.get? (pageOf pageSize address) with
      | none => .error address
      | some content =>
        let offset := address % pageSize
        let taken := min (pageSize - offset) len
        (t.readPages pageSize n (address + taken) (len - taken)).map
          (content.slice offset taken ++ ·)

/-- Reads a range; the first address that has no content is the error. -/
def read (t : PageTable) (pageSize address len : Nat) : Except Nat Bytes :=
  t.readPages pageSize ((address % pageSize + len + pageSize - 1) / pageSize) address len

/-- Writes bytes into `n` pages; those that have no content are skipped. The second
part of the result is the number of bytes written. -/
def writePages (t : PageTable) (pageSize : Nat) :
    (n : Nat) → (address : Nat) → Bytes → PageTable × Nat
  | 0, _, _ => (t, 0)
  | n + 1, address, bytes =>
    let page := pageOf pageSize address
    let offset := address % pageSize
    let part := bytes.take (pageSize - offset)
    let (t, written) := match t.get? page with
      | none => (t, 0)
      | some content => (t.set page (content.splice offset part), part.length)
    let (t, more) := t.writePages pageSize n (address + part.length) (bytes.drop part.length)
    (t, written + more)

/-- Writes bytes from an address on; pages that have no content are skipped. -/
def write (t : PageTable) (pageSize address : Nat) (bytes : Bytes) : PageTable × Nat :=
  let n := (address % pageSize + bytes.length + pageSize - 1) / pageSize
  t.writePages pageSize n address bytes

end PageTable
end DemandPager
