import StorageTiering.Cluster.Basic
import StorageTiering.Text.Digits
/-!
# Paged listings

The blocks at or below a path, in the order of files and of blocks in a file, page by page.

* `liesUnder` — whether a file lies at or below a directory.
* `Cursor` — the place of the last block of a page; `Cursor.text` and `Cursor.read?` are its form.
* `Cluster.listPage` — one page, and the cursor of the next one.
* `Cluster.listAll` — all pages one after another.
-/

namespace StorageTiering

/-- A path without the slashes at its end. -/
def withoutEndSlashes (path : List Char) : List Char :=
  (path.reverse.dropWhile (· == '/')).reverse

/-- Whether what is left of a file's path behind a directory starts a new component. -/
def startsComponent : List Char → Bool
  | [] => true
  | c :: _ => c == '/'

/-- Whether a path of characters lies at or below a directory that has no slash at its end. -/
def liesUnderChars (file dir : List Char) : Bool :=
  dir.isEmpty || (dir.isPrefixOf file && startsComponent (file.drop dir.length))

/-- Whether a file lies at or below a directory. -/
def liesUnder (file dir : String) : Bool :=
  liesUnderChars file.toList (withoutEndSlashes dir.toList)

/-- The place of a block in a listing: its file, and its index in the file. -/
structure Cursor where
  path : String
  index : Nat
  deriving DecidableEq, Repr

namespace Cursor

/-- The written form of a cursor. -/
def text (c : Cursor) : String := c.path ++ "#" ++ toString c.index

/-- Reads the reversed form of a cursor: the index is behind the last number sign. -/
def readReversed? (index : List Char) : List Char → Option Cursor
  | [] => none
  | '#' :: path => (Text.natural? (Text.byteBound 8) index).map fun i =>
      ⟨String.ofList path.reverse, i⟩
  | c :: rest => readReversed? (c :: index) rest

/-- Reads the written form of a cursor. -/
def read? (s : String) : Option Cursor := readReversed? [] s.toList.reverse

/-- Whether a place comes after this one in a listing. -/
def isBefore (c : Cursor) (path : String) (index : Nat) : Bool :=
  decide (c.path < path) || (c.path == path && decide (c.index < index))

end Cursor

/-- A page of a listing, with the written cursor of the next one. -/
structure Page where
  blocks : List ListedBlock
  next : Option String
  deriving DecidableEq, Repr

/-- A block of a listing with its index in its file. -/
structure ListingItem where
  index : Nat
  listed : ListedBlock
  deriving DecidableEq, Repr

namespace ListingItem

/-- The place of an item in its listing. -/
def cursor (i : ListingItem) : Cursor := ⟨i.listed.path, i.index⟩

end ListingItem

namespace Cluster

/-- The listing record of a block of a file. -/
def listedBlock? (c : Cluster) (path : String) (f : File) (id : BlockId) : Option ListedBlock :=
  (c.block? id).map fun b => ⟨path, f.policy, b.block, f.layout, b.replicas⟩

/-- The items of a file. -/
def fileItems (c : Cluster) (path : String) (f : File) : List ListingItem :=
  (f.blocks.mapIdx fun i id => (c.listedBlock? path f id).map (⟨i, ·⟩)).filterMap fun i => i

/-- The files at or below a path. -/
def filesUnder (c : Cluster) (path : String) : List (String × File) :=
  c.files.filter fun f => liesUnder f.1 path

/-- The items of all files at or below a path, in order. -/
def itemsUnder (c : Cluster) (path : String) : List ListingItem :=
  (c.filesUnder path).flatMap fun f => c.fileItems f.1 f.2

/-- The items behind a cursor. -/
def itemsAfter (items : List ListingItem) : Option Cursor → List ListingItem
  | none => items
  | some cursor => items.filter fun i => cursor.isBefore i.listed.path i.index

/-- The first page of items, with the cursor of its last item if there are more. -/
def pageOf (size : Nat) (items : List ListingItem) : Page :=
  let page := items.take size
  ⟨page.map ListingItem.listed,
   if size < items.length then page.getLast?.map fun i => i.cursor.text else none⟩

/-- The page of a path behind a cursor, if there is any file at or below the path. The whole
namespace can always be listed. -/
def pageUnder (c : Cluster) (path : String) (cursor : Option Cursor) : Except ListingError Page :=
  if (c.filesUnder path).isEmpty && path != "/" then .error (.pathNotFound path)
  else .ok (pageOf c.pageSize (itemsAfter (c.itemsUnder path) cursor))

/-- Lists one page of a path, from the start or behind a written cursor. Calls fail as injected. -/
def listPage (c : Cluster) (path : String) (cursor : Option String) :
    Cluster × Except ListingError Page :=
  let c := { c with listCalls := c.listCalls + 1 }
  if c.listingGrace = 0 ∧ 0 < c.listingFailures then
    ({ c with listingFailures := c.listingFailures - 1 },
     .error (.transient ("listing " ++ path ++ " interrupted")))
  else
    let c := { c with listingGrace := c.listingGrace - 1 }
    match cursor with
    | none => (c, c.pageUnder path none)
    | some text =>
        match Cursor.read? text with
        | none => (c, .error (.unavailable ("invalid listing cursor " ++ text)))
        | some cursor => (c, c.pageUnder path (some cursor))

/-- Lists at most so many pages of a path, each behind the one before it, up to a failed call. -/
def listPages : Nat → Cluster → String → Option String → Cluster × List (Except ListingError Page)
  | 0, c, _, _ => (c, [])
  | n + 1, c, path, cursor =>
      match c.listPage path cursor with
      | (c, .error e) => (c, [.error e])
      | (c, .ok page) =>
          match page.next with
          | none => (c, [.ok page])
          | some next =>
              let (c, pages) := listPages n c path (some next)
              (c, .ok page :: pages)

/-- Lists all pages of a path. A page that is not the last has an item, so there are no more pages
than items and one. -/
def listAll (c : Cluster) (path : String) : Cluster × List (Except ListingError Page) :=
  listPages ((c.itemsUnder path).length + 1) c path none

end Cluster

end StorageTiering
