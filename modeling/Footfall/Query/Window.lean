import Footfall.Query.Page

/-!
The listing that answers a dashboard request. A request without a range sees a rolling window that
ends at the time of the request.
-/

namespace Footfall.DashboardOptions

def boundedRange (o : DashboardOptions) : Option DateRange := o.range.filter (!·.isUnbounded)

def filters (o : DashboardOptions) (now : Instant) (days : Value) : Except Fault EventFilters :=
  match o.boundedRange with
  | some r =>
    return { start := r.start, stop := r.stop, exact := r.exact, limit := o.limit,
             offset := o.offset }
  | none => return { start := some (← now.daysBefore days), limit := o.limit, offset := o.offset }

/-- A bounded range is applied as it is. -/
theorem range_filters {o : DashboardOptions} {r : DateRange} (h : o.boundedRange = some r)
    (now : Instant) (days : Value) : (o.filters now days).map EventFilters.range = .ok r := by
  unfold filters
  rw [h]
  rfl

end Footfall.DashboardOptions
