/-!
# Dictionaries in key order

A finite map from texts to texts, kept as the list of its entries in increasing order of the keys.
The order is that of code points, which is also the order of the UTF-8 bytes, so equal maps have
equal entry lists and a dictionary is written out in one way only.

* `get?_insert` says what an insertion does to every look-up.
* `Dictionary.sorted` is the invariant; in particular no key occurs twice.
-/

namespace Redaction

/-- Texts under distinct text keys, listed in increasing order of the keys. -/
structure Dictionary where
  entries : List (String × String)
  sorted : entries.Pairwise (fun a b => a.1 < b.1)
deriving DecidableEq

namespace Dictionary

/-- The dictionary without entries. -/
def empty : Dictionary := ⟨[], .nil⟩

/-- The value in `entries` under `key`. -/
def find? (key : String) : List (String × String) → Option String
  | [] => none
  | (k, v) :: rest => if k = key then some v else find? key rest

/-- The value under `key`. -/
def get? (d : Dictionary) (key : String) : Option String := find? key d.entries

/-- Whether `key` has a value. -/
def contains (d : Dictionary) (key : String) : Bool := (d.get? key).isSome

/-- The keys in increasing order. -/
def keys (d : Dictionary) : List String := d.entries.map (·.1)

/-- The number of keys. -/
def size (d : Dictionary) : Nat := d.entries.length

/-- Puts `value` under `key` at its place in an ordered list, in place of an earlier value. -/
def place (key value : String) : List (String × String) → List (String × String)
  | [] => [(key, value)]
  | (k, v) :: rest =>
    if key < k then (key, value) :: (k, v) :: rest
    else if key = k then (key, value) :: rest
    else (k, v) :: place key value rest

theorem mem_place {key value : String} {x : String × String} :
    ∀ {l : List (String × String)}, x ∈ place key value l → x = (key, value) ∨ x ∈ l
  | [], h => by simpa [place] using h
  | (k, v) :: rest, h => by
    unfold place at h
    split at h
    · simpa using h
    · split at h
      · rcases List.mem_cons.1 h with h | h
        · exact .inl h
        · exact .inr (List.mem_cons_of_mem _ h)
      · rcases List.mem_cons.1 h with h | h
        · exact .inr (h ▸ List.mem_cons_self)
        · exact (mem_place h).imp id (List.mem_cons_of_mem _)

theorem pairwise_place (key value : String) :
    ∀ {l : List (String × String)}, l.Pairwise (fun a b => a.1 < b.1) →
      (place key value l).Pairwise (fun a b => a.1 < b.1)
  | [], _ => by simp [place]
  | (k, v) :: rest, h => by
    have ⟨hk, hr⟩ := List.pairwise_cons.1 h
    unfold place
    split
    next hlt =>
      refine List.pairwise_cons.2 ⟨fun x hx => ?_, h⟩
      rcases List.mem_cons.1 hx with rfl | hx
      · exact hlt
      · exact String.lt_trans hlt (hk x hx)
    next hlt =>
      split
      next heq => subst heq; exact List.pairwise_cons.2 ⟨hk, hr⟩
      next hne =>
        refine List.pairwise_cons.2 ⟨fun x hx => ?_, pairwise_place key value hr⟩
        rcases mem_place hx with rfl | hx
        · exact String.not_le.1 fun hle => hne (String.le_antisymm hle (String.not_lt.1 hlt))
        · exact hk x hx

/-- The dictionary with `value` under `key`, in place of an earlier value. -/
def insert (d : Dictionary) (key value : String) : Dictionary :=
  ⟨place key value d.entries, pairwise_place key value d.sorted⟩

theorem find?_place (key value key' : String) :
    ∀ {l : List (String × String)}, l.Pairwise (fun a b => a.1 < b.1) →
      find? key' (place key value l) = if key = key' then some value else find? key' l
  | [], _ => rfl
  | (k, v) :: rest, h => by
    have ⟨_, hr⟩ := List.pairwise_cons.1 h
    unfold place
    split
    · rfl
    · split
      next heq => subst heq; simp only [find?]; split <;> rfl
      next hne =>
        simp only [find?, find?_place key value key' hr]
        by_cases h1 : k = key'
        · have : key ≠ key' := fun e => hne (e.trans h1.symm)
          simp [h1, this]
        · simp [h1]

@[simp] theorem get?_empty (key : String) : empty.get? key = none := rfl

/-- An insertion changes the look-up of its own key only. -/
theorem get?_insert (d : Dictionary) (key value key' : String) :
    (d.insert key value).get? key' = if key = key' then some value else d.get? key' :=
  find?_place key value key' d.sorted

end Dictionary
end Redaction
