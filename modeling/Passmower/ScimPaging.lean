import Passmower.Slices

/-! The pages of the SCIM lists: how much of a list a response shows, and what a client gets that asks for one page
after another. -/
namespace Passmower
open JavaScript

structure PageQuery where
  startIndex : Option String := none
  count : Option String := none

def PageQuery.first (query : PageQuery) : Int := max 1 ((parseInt (query.startIndex.getD "1")).getD 1)

section Paging
variable {α : Type} {resources : List α} {count : Option String}

end Paging
end Passmower
