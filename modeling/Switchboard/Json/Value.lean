import Switchboard.Json.Number

/-!
# `Switchboard.Json.Value`: JSON values

The members of an object are in ascending order of their names, one for each name. `Members.insert`
keeps them so (`ascending_insert`), and `Value.ofMembers` builds an object from members in any
order, where of two with one name the later counts (`get?_insert`).
-/

set_option autoImplicit false

namespace Switchboard.Json

/-- A JSON value. -/
inductive Value
  | null
  | bool (value : Bool)
  | number (value : Number)
  | string (text : String)
  | array (items : List Value)
  | object (members : List (String × Value))
deriving Repr, Inhabited

mutual

/-- Whether two values are the same. -/
def Value.same : Value → Value → Bool
  | .null, .null => true
  | .bool a, .bool b => a == b
  | .number a, .number b => a == b
  | .string a, .string b => a == b
  | .array as, .array bs => sameItems as bs
  | .object as, .object bs => sameMembers as bs
  | _, _ => false

/-- Whether two lists of values are the same. -/
def sameItems : List Value → List Value → Bool
  | [], [] => true
  | a :: as, b :: bs => a.same b && sameItems as bs
  | _, _ => false

/-- Whether two lists of members are the same. -/
def sameMembers : List (String × Value) → List (String × Value) → Bool
  | [], [] => true
  | (m, a) :: as, (n, b) :: bs => m == n && a.same b && sameMembers as bs
  | _, _ => false

end

mutual

/-- Values are the same if they are equal. -/
theorem Value.same_iff : (a b : Value) → (a.same b = true ↔ a = b)
  | .null, b => by cases b <;> simp [Value.same]
  | .bool _, b => by cases b <;> simp [Value.same]
  | .number _, b => by cases b <;> simp [Value.same]
  | .string _, b => by cases b <;> simp [Value.same]
  | .array as, b => by cases b <;> simp [Value.same, sameItems_iff as]
  | .object as, b => by cases b <;> simp [Value.same, sameMembers_iff as]

/-- Items are the same if they are equal one by one. -/
theorem sameItems_iff : (as bs : List Value) → (sameItems as bs = true ↔ as = bs)
  | [], bs => by cases bs <;> simp [sameItems]
  | a :: as, bs => by cases bs <;> simp [sameItems, a.same_iff, sameItems_iff as]

/-- Members are the same if their names and values are. -/
theorem sameMembers_iff :
    (as bs : List (String × Value)) → (sameMembers as bs = true ↔ as = bs)
  | [], bs => by cases bs <;> simp [sameMembers]
  | (m, a) :: as, bs => by
    cases bs with
    | nil => simp [sameMembers]
    | cons n bs => cases n; simp [sameMembers, a.same_iff, sameMembers_iff as, and_assoc]

end

instance : DecidableEq Value := fun a b => decidable_of_iff _ (a.same_iff b)

namespace Members

variable {α : Type}

/-- Puts a member in its place; one of the same name gives way. -/
def insert (name : String) (value : α) : List (String × α) → List (String × α)
  | [] => [(name, value)]
  | (other, old) :: rest =>
    match compare name other with
    | .lt => (name, value) :: (other, old) :: rest
    | .eq => (name, value) :: rest
    | .gt => (other, old) :: insert name value rest

/-- The members in order, the later of two with one name. -/
def ofList (members : List (String × α)) : List (String × α) :=
  members.foldl (fun sorted member => insert member.1 member.2 sorted) []

/-- The value under a name. -/
def get? (name : String) (members : List (String × α)) : Option α :=
  (members.find? fun member => member.1 == name).map Prod.snd

/-- Names in ascending order, none of them twice. -/
def Ascending (members : List (String × α)) : Prop :=
  members.Pairwise fun a b => compare a.1 b.1 = .lt

/-- A member is the one just put in or was there. -/
theorem mem_insert {name : String} {value : α} {members : List (String × α)} {m : String × α}
    (h : m ∈ insert name value members) : m = (name, value) ∨ m ∈ members := by
  induction members with
  | nil => simpa [insert] using h
  | cons head rest ih =>
    unfold insert at h
    split at h <;> grind

/-- The names stay in order when a member is put in. -/
theorem ascending_insert (name : String) (value : α) {members : List (String × α)}
    (h : Ascending members) : Ascending (insert name value members) := by
  induction members with
  | nil => simp [insert, Ascending]
  | cons head rest ih =>
    obtain ⟨other, old⟩ := head
    obtain ⟨first, others⟩ := List.pairwise_cons.mp h
    unfold insert
    split
    case h_1 before =>
      refine List.pairwise_cons.mpr ⟨fun m hm => ?_, h⟩
      rcases List.mem_cons.mp hm with rfl | hm
      · exact before
      · exact Std.TransCmp.lt_trans before (first m hm)
    case h_2 same =>
      have : name = other := Std.LawfulEqOrd.eq_of_compare same
      subst this
      exact List.pairwise_cons.mpr ⟨first, others⟩
    case h_3 after =>
      refine List.pairwise_cons.mpr ⟨fun m hm => ?_, ih others⟩
      rcases mem_insert hm with rfl | hm
      · exact Std.OrientedCmp.lt_of_gt after
      · exact first m hm

/-- The members of an object that was built are in order. -/
theorem ascending_ofList (members : List (String × α)) : Ascending (ofList members) := by
  have keeps : ∀ (rest sorted : List (String × α)), Ascending sorted →
      Ascending (rest.foldl (fun sorted member => insert member.1 member.2 sorted) sorted) := by
    intro rest
    induction rest with
    | nil => exact fun _ h => h
    | cons member rest ih => exact fun sorted h => ih _ (ascending_insert _ _ h)
  exact keeps members [] .nil

/-- The value just put in is found under its name, any other one as before. -/
theorem get?_insert (query name : String) (value : α) (members : List (String × α)) :
    get? query (insert name value members) =
      if query = name then some value else get? query members := by
  induction members with
  | nil => simp [insert, get?]; grind
  | cons head rest ih =>
    obtain ⟨other, old⟩ := head
    unfold insert
    split
    case h_1 before => simp [get?, List.find?_cons]; grind
    case h_2 same =>
      have : name = other := Std.LawfulEqOrd.eq_of_compare same
      subst this
      simp [get?, List.find?_cons]; grind
    case h_3 after =>
      have : name ≠ other := by rintro rfl; simp at after
      simp [get?, List.find?_cons] at ih ⊢; grind

end Members

namespace Value

/-- The object with the given members; of two with one name the later counts. -/
def ofMembers (members : List (String × Value)) : Value := object (Members.ofList members)

/-- A count as a value. -/
def ofNat (n : Nat) : Value := number (Number.ofNat n)

/-- The member of an object; other values have none. -/
def member? (name : String) : Value → Option Value
  | object members => Members.get? name members
  | _ => none

end Value

end Switchboard.Json
