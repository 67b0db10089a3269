import RecordQuery.Context
import RecordQuery.Value.Arithmetic

/-! # Pages

A page holds the entries of one page of a result and the three numbers from which its place among
the pages follows.  Nothing is checked when a page is made, so each number may be any value, and
each derived quantity either has a value or a fault of the arithmetic behind it.

The number of pages is the least integer not below the quotient of the total count and the page
size, taken in binary64.

The page of a query is a window of the arranged sources that its number and its size place.  It
takes the place of what is to be skipped: a page that is asked for by number ignores it, and where
no page is asked for, it decides the number, so that the page shown is the one on which the first
source after the skipped ones lies.  The size of a page is the limit, or what the settings say. -/

namespace RecordQuery

/-- One page of a result. -/
structure Page where
  entries : Value
  currentPage : Value
  perPage : Value
  totalCount : Value
  deriving Repr

namespace Page

/-- The first page of an empty result. -/
def empty : Page := ⟨.list [], .int 1, .int 20, .int 0⟩

/-- The number of pages, zero where the page size counts as false. -/
def totalPages (p : Page) : Except Fault Value :=
  if p.perPage.truthy then p.totalCount.ceilDiv p.perPage else .ok (.int 0)

/-- How many entries lie before this page. -/
def offset (p : Page) : Except Fault Value := do
  (← p.currentPage.sub (.int 1)).mul p.perPage

/-- The number of the page before, null on the first page. -/
def previousPage (p : Page) : Except Fault Value := do
  if ← p.currentPage.gt (.int 1) then p.currentPage.sub (.int 1) else return .null

/-- The number of the page after, null on the last page. -/
def nextPage (p : Page) : Except Fault Value := do
  if ← p.currentPage.lt (← p.totalPages) then p.currentPage.add (.int 1) else return .null

/-- Whether the page lies behind the last one. -/
def outOfBounds (p : Page) : Except Fault Bool := do
  p.currentPage.gt (← p.totalPages)

/-- The number of entries. -/
def size (p : Page) : Except Fault Nat := p.entries.size

/-- The entries in order. -/
def toList (p : Page) : Except Fault (List Value) := p.entries.items

/-- The page as a dictionary. -/
def toDict (p : Page) : Except Fault Dict := do
  let entries ← p.toList
  let totalPages ← p.totalPages
  return [(.text "entries", .list entries), (.text "current_page", p.currentPage),
    (.text "per_page", p.perPage), (.text "total_count", p.totalCount),
    (.text "total_pages", totalPages)]

end Page

/-! ### The page of a query -/

namespace Context

/-- The number of the page: the one asked for if it is positive, or else the one on which the first
source after the skipped ones lies, or else the first. -/
def page (x : Context) : Int :=
  match x.criteria.extras.page with
  | some n => if 0 < n then n else implied
  | none => implied
where
  /-- The page on which the first source after the skipped ones lies. -/
  implied : Int :=
    match x.criteria.options.skip, x.criteria.options.limit with
    | some skip, some limit => Int.fdiv (skip + limit) limit
    | _, _ => 1

/-- The size of a page: the limit, or what the settings say. -/
def perPage (x : Context) : Int :=
  match x.criteria.options.limit with
  | some n => if n = 0 then x.criteria.settings.defaultPerPage else n
  | none => x.criteria.settings.defaultPerPage

/-- The window of arranged sources that a page of the given number and size shows. -/
def pageWindow (docs : List Value) (page perPage : Int) : List Value :=
  window docs ((page - 1) * perPage) (some perPage)

/-- The page, in place of what is to be skipped and how many the limit allows.  It is reported with
its number and its size, so there is none where one of them is too long to be written. -/
def paginate (x : Context) : Logged Page :=
  let found := do
    let docs ← x.matched
    let arranged ← x.arrange docs
    return (docs, pageWindow arranged x.page x.perPage)
  match found with
  | .error e => .silent (.error e)
  | .ok (docs, entries) =>
    let message : Option String := do
      return "Paginated query: page " ++ (← Text.ofInt? x.page) ++ ", per_page " ++
        (← Text.ofInt? x.perPage) ++ ", " ++ Nat.repr entries.length ++ " of " ++
        Nat.repr docs.length ++ " matches"
    .report .debug message (.ok ⟨.list entries, .int x.page, .int x.perPage, .int docs.length⟩)

end Context
end RecordQuery
