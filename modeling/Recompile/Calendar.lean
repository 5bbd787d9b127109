/-!
# The calendar

Dates are read from configuration documents and from the members of archives. What days there are follows from
the lengths of the months.
-/

namespace Recompile

def daysIn (year month : Nat) : Nat :=
  if month = 2 then if year % 4 = 0 ∧ (year % 100 ≠ 0 ∨ year % 400 = 0) then 29 else 28
  else if month = 4 ∨ month = 6 ∨ month = 9 ∨ month = 11 then 30
  else 31

end Recompile
