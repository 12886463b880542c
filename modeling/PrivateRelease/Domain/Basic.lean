import PrivateRelease.Descriptor.Basic

/-!
# Domains

A domain is a set of values of one type, its carrier: all of them, an interval of numbers, vectors
over a domain, vectors of one length, or tuples. Domains are compared by structure, the bounds of
intervals as numbers.
-/

namespace PrivateRelease

inductive Domain where
  | all (carrier : Descriptor)
  | interval (q : Numeric) (lower upper : q.Carrier) (ordered : Numeric.le lower upper)
  | vector (inner : Domain)
  | sized (inner : Domain) (size : Nat)
  | product (parts : List Domain)

namespace Domain

instance : Inhabited Domain := ⟨product []⟩

mutual

/-- The type of the members. -/
def carrier : Domain → Descriptor
  | all d => d
  | interval q _ _ _ => .numeric q
  | vector inner => .vector inner.carrier
  | sized inner _ => inner.carrier
  | product parts => .tuple (carriers parts)

def carriers : List Domain → List Descriptor
  | [] => []
  | d :: ds => d.carrier :: carriers ds

end

mutual

/-- The shape of the domain, without bounds and sizes. -/
def descriptor : Domain → Descriptor
  | all d => .generic "AllDomain" [d]
  | interval q _ _ _ => .generic "IntervalDomain" [.numeric q]
  | vector inner => .generic "VectorDomain" [inner.descriptor]
  | sized inner _ => .generic "SizedDomain" [inner.descriptor]
  | product parts => .generic "ProductDomain" (descriptors parts)

def descriptors : List Domain → List Descriptor
  | [] => []
  | d :: ds => d.descriptor :: descriptors ds

end

mutual

def same : Domain → Domain → Bool
  | all d, all e => d == e
  | interval q a b _, interval r c d _ =>
    if h : q = r then Numeric.same (h ▸ a) c && Numeric.same (h ▸ b) d else false
  | vector a, vector b => same a b
  | sized a m, sized b n => same a b && m == n
  | product as, product bs => sameList as bs
  | _, _ => false

def sameList : List Domain → List Domain → Bool
  | [], [] => true
  | a :: as, b :: bs => same a b && sameList as bs
  | _, _ => false

end

mutual

def toText : Domain → String
  | all d => s!"AllDomain<{d.toText}>"
  | interval q lower upper _ =>
    s!"IntervalDomain<{q.name}>[{Numeric.toText lower}, {Numeric.toText upper}]"
  | vector inner => s!"VectorDomain<{inner.toText}>"
  | sized inner size => s!"SizedDomain<{inner.toText}>[{size}]"
  | product parts => s!"ProductDomain<{listText parts}>"

def listText : List Domain → String
  | [] => ""
  | [d] => d.toText
  | d :: next :: ds => d.toText ++ ", " ++ listText (next :: ds)

end

instance : ToString Domain := ⟨toText⟩

/-- The domain of the records and their number, for datasets of a fixed size. -/
def sizedRecords? : Domain → Option (Domain × Nat)
  | sized (vector records) size => some (records, size)
  | _ => none

theorem carriers_eq_map (ds : List Domain) : carriers ds = ds.map carrier := by
  induction ds with
  | nil => simp [carriers]
  | cons d ds ih => simp [carriers, ih]

end Domain

end PrivateRelease
