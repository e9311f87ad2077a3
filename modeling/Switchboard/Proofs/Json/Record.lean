import Mathlib.Data.List.Forall2
import Switchboard.Json.Record
import Switchboard.Proofs.Success

/-!
# `Switchboard.Proofs.Json.Record`: what an accepted object holds

An object that is read as a strict record gives each of its members to a field, no two of them to
the same one (`Shape.gives_of_foldlM`, `Shape.given_of_foldlM`), and this is all that is asked of it
besides the fields that are required (`Shape.exists_foldlM`, `Shape.finish_eq_ok_iff`). An object is
read as a value if all its members are, and of two members with one name the later counts
(`Members.get?_ofList`).
-/

set_option autoImplicit false

namespace Switchboard.Json

/-- A container that has to be closed is closed. -/
theorem isSome_of_requireClosed {source? : Option (List Lexeme)}
    (closed : requireClosed source? = .ok ()) : source?.isSome := by
  unfold requireClosed at closed
  split at closed
  · assumption
  · cases closed

namespace Shape

variable {ρ α : Type} {shape : Shape ρ} {room : Nat}

/-- Whether a member gives the field of a name, and what is put into the record for it. -/
structure Gives (shape : Shape ρ) (room : Nat) (member : List Char × Outline) (name : String)
    (put : ρ → ρ) : Prop where
  named : readInside member.1 = .ok name
  read : ∃ field, shape.field? name = some field ∧ field.read room member.2 = .ok put

/-- A member that gives a field gives one of the record. -/
theorem Gives.listed {member : List Char × Outline} {name : String} {put : ρ → ρ}
    (gives : shape.Gives room member name put) :
    ∃ field ∈ shape.fields, field.name = name ∧ field.read room member.2 = .ok put := by
  obtain ⟨field, found, read⟩ := gives.read
  exact ⟨field, List.mem_of_find?_eq_some found, by simpa using List.find?_some found, read⟩

/-- A strict record takes only members that give one of its fields for the first time. -/
theorem readMember_eq_ok (strict : shape.strict) {done after : Partial ρ}
    {member : List Char × Outline} (read : shape.readMember room done member = .ok after) :
    ∃ name put, shape.Gives room member name put ∧ name ∉ done.given ∧
      after = ⟨put done.record, name :: done.given⟩ := by
  obtain ⟨name, named, read⟩ := bind_eq_ok read
  split at read
  case h_1 field found =>
    split at read
    case isTrue => cases read
    case isFalse fresh =>
      obtain ⟨put, value, same⟩ := bind_eq_ok read
      refine ⟨name, put, ⟨named, field, found, value⟩, by simpa using fresh, ?_⟩
      exact (Except.ok.inj same).symm
  case h_2 => simp [strict] at read

/-- Where no other name is allowed, each member gives a field that was not given before. -/
theorem gives_of_foldlM (strict : shape.strict) {members : List (List Char × Outline)}
    {done after : Partial ρ} (read : members.foldlM (shape.readMember room) done = .ok after)
    {member : List Char × Outline} (listed : member ∈ members) :
    ∃ name put, shape.Gives room member name put ∧ name ∉ done.given := by
  induction members generalizing done with
  | nil => cases listed
  | cons first rest ih =>
    rw [List.foldlM_cons] at read
    obtain ⟨middle, head, tail⟩ := bind_eq_ok read
    obtain ⟨name, put, gives, fresh, rfl⟩ := readMember_eq_ok strict head
    rcases List.mem_cons.mp listed with rfl | listed
    · exact ⟨name, put, gives, fresh⟩
    · obtain ⟨name', put', gives', fresh'⟩ := ih tail listed
      exact ⟨name', put', gives', fun known => fresh' (List.mem_cons_of_mem name known)⟩

/-- A part of the record that only one field sets is left as it was, or set by the one member that
gives this field. -/
theorem get_of_foldlM (strict : shape.strict) {name : String} {get : ρ → α}
    (keeps : ∀ field ∈ shape.fields, field.name ≠ name → ∀ value put,
      field.read room value = .ok put → ∀ record, get (put record) = get record)
    {members : List (List Char × Outline)} {done after : Partial ρ}
    (read : members.foldlM (shape.readMember room) done = .ok after) :
    ((∀ member ∈ members, readInside member.1 ≠ .ok name) ∧
      get after.record = get done.record) ∨
    ∃ member ∈ members, ∃ put record, shape.Gives room member name put ∧
      get after.record = get (put record) ∧
      ∀ other ∈ members, readInside other.1 = .ok name → other = member := by
  -- The first member gives the field or another one; if it gives the field, later ones cannot.
  induction members generalizing done with
  | nil =>
    obtain rfl := Except.ok.inj read
    exact .inl ⟨List.forall_mem_nil _, rfl⟩
  | cons first rest ih =>
    rw [List.foldlM_cons] at read
    obtain ⟨middle, head, tail⟩ := bind_eq_ok read
    obtain ⟨name', put, gives, fresh, rfl⟩ := readMember_eq_ok strict head
    by_cases same : name' = name
    · -- The name is taken from here on, so no other member has it.
      subst same
      have taken : ∀ member ∈ rest, readInside member.1 ≠ .ok name' := by
        intro member listed named
        obtain ⟨other, _, gives', fresh'⟩ := gives_of_foldlM strict tail listed
        obtain rfl := Except.ok.inj (named.symm.trans gives'.named)
        exact fresh' List.mem_cons_self
      rcases ih tail with ⟨-, kept⟩ | ⟨member, listed, _, _, gives', -⟩
      · refine .inr ⟨first, List.mem_cons_self, put, done.record, gives, kept, ?_⟩
        rintro other listed named
        rcases List.mem_cons.mp listed with rfl | listed
        · rfl
        · exact absurd named (taken other listed)
      · exact absurd gives'.named (taken member listed)
    · have unnamed : readInside first.1 ≠ .ok name :=
        fun named => same (Except.ok.inj (gives.named.symm.trans named))
      obtain ⟨field, known, called, value⟩ := gives.listed
      have kept := keeps field known (called ▸ same) first.2 put value done.record
      rcases ih tail with ⟨others, kept'⟩ | ⟨member, listed, put', record, gives', set, only⟩
      · exact .inl ⟨List.forall_mem_cons.mpr ⟨unnamed, others⟩, kept'.trans kept⟩
      · refine .inr ⟨member, List.mem_cons_of_mem first listed, put', record, gives', set, ?_⟩
        rintro other listed named
        rcases List.mem_cons.mp listed with rfl | listed
        · exact absurd named unnamed
        · exact only other listed named

/-- A part of the record that only one field sets has the value that is read for this field from
the member of its name, if there is one. -/
theorem part_of_foldlM (strict : shape.strict) {name : String} {required : Bool}
    {reader : Reader α} {put : α → ρ → ρ} {get : ρ → α}
    (known : shape.field? name =
      some ⟨name, required, fun room outline => put <$> reader room outline⟩)
    (sets : ∀ value record, get (put value record) = value)
    (keeps : ∀ field ∈ shape.fields, field.name ≠ name → ∀ value put,
      field.read room value = .ok put → ∀ record, get (put record) = get record)
    {members : List (List Char × Outline)} {done after : Partial ρ}
    (read : members.foldlM (shape.readMember room) done = .ok after) :
    ((∀ member ∈ members, readInside member.1 ≠ .ok name) ∧
      get after.record = get done.record) ∨
    ∃ member ∈ members, readInside member.1 = .ok name ∧
      reader room member.2 = .ok (get after.record) := by
  rcases get_of_foldlM strict keeps read with absent | ⟨member, listed, put', record, gives, set, -⟩
  · exact .inl absent
  · obtain ⟨field, found, value⟩ := gives.read
    obtain rfl := Option.some.inj (known.symm.trans found)
    obtain ⟨result, accepted, rfl⟩ := map_eq_ok value
    refine .inr ⟨member, listed, gives.named, ?_⟩
    rw [accepted, set, sets]

/-- The fields that were given are those that the members name, no two of them alike. -/
theorem given_of_foldlM (strict : shape.strict) {members : List (List Char × Outline)}
    {names : List String}
    (named : List.Forall₂ (fun member name => readInside member.1 = .ok name) members names)
    {done after : Partial ρ} (read : members.foldlM (shape.readMember room) done = .ok after) :
    names.Nodup ∧ (∀ name ∈ names, name ∉ done.given) ∧
      after.given = names.reverse ++ done.given := by
  induction named generalizing done with
  | nil =>
    obtain rfl := Except.ok.inj read
    exact ⟨List.nodup_nil, List.forall_mem_nil _, rfl⟩
  | cons first _ ih =>
    rw [List.foldlM_cons] at read
    obtain ⟨middle, head, tail⟩ := bind_eq_ok read
    obtain ⟨name, put, gives, fresh, rfl⟩ := readMember_eq_ok strict head
    obtain rfl := Except.ok.inj (first.symm.trans gives.named)
    obtain ⟨distinct, others, given⟩ := ih tail
    refine ⟨List.nodup_cons.mpr ⟨fun again => others _ again List.mem_cons_self, distinct⟩,
      List.forall_mem_cons.mpr ⟨fresh, fun name listed old =>
        others name listed (List.mem_cons_of_mem _ old)⟩, by simpa using given⟩

/-- A member that gives a field for the first time is read. -/
theorem readMember_of_gives {done : Partial ρ} {member : List Char × Outline} {name : String}
    {put : ρ → ρ} (gives : shape.Gives room member name put) (fresh : name ∉ done.given) :
    shape.readMember room done member = .ok ⟨put done.record, name :: done.given⟩ := by
  obtain ⟨named, field, found, read⟩ := gives
  rw [readMember, named]
  simp only [bind, Except.bind, found, List.contains_eq_mem, fresh, read]
  rfl

/-- Members that give different fields are read. -/
theorem exists_foldlM {members : List (List Char × Outline)} {names : List String}
    (gives : List.Forall₂ (fun member name => ∃ put, shape.Gives room member name put)
      members names)
    (distinct : names.Nodup) {done : Partial ρ} (fresh : ∀ name ∈ names, name ∉ done.given) :
    ∃ after, members.foldlM (shape.readMember room) done = .ok after := by
  induction gives generalizing done with
  | nil => exact ⟨done, rfl⟩
  | @cons member name rest names first _ ih =>
    obtain ⟨put, first⟩ := first
    obtain ⟨new, distinct⟩ := List.nodup_cons.mp distinct
    obtain ⟨fresh, later⟩ := List.forall_mem_cons.mp fresh
    rw [List.foldlM_cons, readMember_of_gives first fresh]
    refine ih distinct fun other listed => ?_
    have differs : other ≠ name := by
      rintro rfl
      exact new listed
    simpa [differs] using later other listed

/-- A record is complete if all required fields were given. -/
theorem finish_eq_ok_iff {done : Partial ρ} {record : ρ} :
    shape.finish done = .ok record ↔
      (∀ field ∈ shape.fields, field.required → field.name ∈ done.given) ∧
        done.record = record := by
  unfold finish
  cases missing : shape.fields.find? fun field =>
      field.required && !done.given.contains field.name with
  | none =>
    have complete : ∀ field ∈ shape.fields, field.required → field.name ∈ done.given := by
      simpa using missing
    exact ⟨fun same => ⟨complete, Except.ok.inj same⟩, fun both => congrArg _ both.2⟩
  | some field =>
    have absent : field.required ∧ field.name ∉ done.given := by
      simpa using List.find?_some missing
    have listed := List.mem_of_find?_eq_some missing
    exact iff_of_false (by simp) fun both => absent.2 (both.1 field listed absent.1)

/-- A complete object is read as a record if its members are and the record is complete then. -/
theorem read_object_iff {members : List (List Char × Outline)} {source : List Lexeme} {record : ρ} :
    shape.read (room + 1) (.object members (some source)) = .ok record ↔
      ∃ done, members.foldlM (shape.readMember room) ⟨shape.blank, []⟩ = .ok done ∧
        shape.finish done = .ok record := by
  show (members.foldlM (shape.readMember room) ⟨shape.blank, []⟩ >>= shape.finish) = _ ↔ _
  constructor
  · exact bind_eq_ok
  · rintro ⟨done, read, complete⟩
    rw [read]
    exact complete

/-- A record is read from an object member by member. -/
theorem read_object {room : Nat} {members : List (List Char × Outline)}
    {source? : Option (List Lexeme)} {record : ρ}
    (read : shape.read (room + 1) (.object members source?) = .ok record) :
    ∃ done, members.foldlM (shape.readMember room) ⟨shape.blank, []⟩ = .ok done ∧
      source?.isSome ∧ done.record = record := by
  obtain ⟨done, members, read⟩ := bind_eq_ok read
  obtain ⟨_, closed, read⟩ := bind_eq_ok read
  exact ⟨done, members, isSome_of_requireClosed closed, (finish_eq_ok_iff.mp read).2⟩

end Shape

/-! ### Objects as values -/

variable {readText : List Char → Except Fault Value} {room : Nat}
  {members : List (List Char × Outline)}

/-- Members are readable if their names and values are. -/
theorem exists_toMembersWith (readable : ∀ member ∈ members,
      (∃ name, readInside member.1 = .ok name) ∧
        ∃ value, member.2.toValueWith readText room = .ok value) :
    ∃ values, toMembersWith readText room members = .ok values := by
  induction members with
  | nil => exact ⟨[], rfl⟩
  | cons member rest ih =>
    obtain ⟨⟨⟨name, named⟩, value, read⟩, others⟩ := List.forall_mem_cons.mp readable
    obtain ⟨values, rest⟩ := ih others
    refine ⟨(name, value) :: values, ?_⟩
    rw [toMembersWith, named, read, rest]
    rfl

/-- Items are readable if each of them is. -/
theorem exists_toValuesWith {items : List Outline} (readable : ∀ item ∈ items,
      ∃ value, item.toValueWith readText room = .ok value) :
    ∃ values, toValuesWith readText room items = .ok values := by
  induction items with
  | nil => exact ⟨[], rfl⟩
  | cons item rest ih =>
    obtain ⟨⟨value, read⟩, others⟩ := List.forall_mem_cons.mp readable
    obtain ⟨values, rest⟩ := ih others
    refine ⟨value :: values, ?_⟩
    rw [toValuesWith, read, rest]
    rfl

/-- The entries of an object are its members, under their names and with their values. -/
theorem entries_of_toMembersWith {entries : List (String × Value)}
    (read : toMembersWith readText room members = .ok entries) :
    (∀ member ∈ members, ∃ entry ∈ entries, readInside member.1 = .ok entry.1 ∧
      member.2.toValueWith readText room = .ok entry.2) ∧
    ∀ entry ∈ entries, ∃ member ∈ members, readInside member.1 = .ok entry.1 ∧
      member.2.toValueWith readText room = .ok entry.2 := by
  -- Members and entries stand side by side, so each has its counterpart in the other list.
  induction members generalizing entries with
  | nil =>
    obtain rfl := Except.ok.inj read
    exact ⟨List.forall_mem_nil _, List.forall_mem_nil _⟩
  | cons member rest ih =>
    obtain ⟨name, named, read⟩ := bind_eq_ok read
    obtain ⟨value, first, read⟩ := bind_eq_ok read
    obtain ⟨others, later, same⟩ := bind_eq_ok read
    obtain rfl := Except.ok.inj same
    obtain ⟨given, made⟩ := ih later
    refine ⟨List.forall_mem_cons.mpr ⟨⟨_, List.mem_cons_self, named, first⟩, ?_⟩,
      List.forall_mem_cons.mpr ⟨⟨_, List.mem_cons_self, named, first⟩, ?_⟩⟩
    · intro member listed
      obtain ⟨entry, inside, reads⟩ := given member listed
      exact ⟨entry, List.mem_cons_of_mem _ inside, reads⟩
    · intro entry listed
      obtain ⟨member, inside, reads⟩ := made entry listed
      exact ⟨member, List.mem_cons_of_mem _ inside, reads⟩

/-- Of several members with one name the last one counts. -/
theorem Members.get?_foldl_insert {α : Type} (name : String) (entries sorted : List (String × α)) :
    get? name (entries.foldl (fun sorted entry => insert entry.1 entry.2 sorted) sorted) =
      ((entries.reverse.find? (·.1 == name)).map Prod.snd).or (get? name sorted) := by
  induction entries generalizing sorted with
  | nil => rfl
  | cons entry rest ih =>
    rw [List.foldl_cons, ih, get?_insert, List.reverse_cons, List.find?_append]
    by_cases same : entry.1 = name
    · cases rest.reverse.find? (·.1 == name) <;> simp [same]
    · cases rest.reverse.find? (·.1 == name) <;> simp [same, Ne.symm same]

/-- Of two members with one name the later counts. -/
theorem Members.get?_ofList {α : Type} (name : String) (entries : List (String × α)) :
    get? name (ofList entries) = (entries.reverse.find? (·.1 == name)).map Prod.snd := by
  rw [ofList, get?_foldl_insert]
  exact Option.or_none

/-- A name that no member has is not found. -/
theorem Members.get?_ofList_eq_none {α : Type} {name : String} {entries : List (String × α)}
    (absent : ∀ entry ∈ entries, entry.1 ≠ name) : get? name (ofList entries) = none := by
  have nowhere : entries.reverse.find? (·.1 == name) = none :=
    List.find?_eq_none.mpr fun entry listed same =>
      absent entry (List.mem_reverse.mp listed) (beq_iff_eq.mp same)
  rw [get?_ofList, nowhere]
  rfl

/-- Where only one value stands under a name, it is found. -/
theorem Members.get?_ofList_of_forall {α : Type} {name : String} {entries : List (String × α)}
    {entry : String × α} (listed : entry ∈ entries) (called : entry.1 = name)
    (only : ∀ other ∈ entries, other.1 = name → other.2 = entry.2) :
    get? name (ofList entries) = some entry.2 := by
  rw [get?_ofList]
  cases found : entries.reverse.find? (·.1 == name) with
  | none =>
    have absent := List.find?_eq_none.mp found entry (List.mem_reverse.mpr listed)
    exact absurd (beq_iff_eq.mpr called) absent
  | some last =>
    have inside := List.mem_reverse.mp (List.mem_of_find?_eq_some found)
    have same : last.1 = name := by simpa using List.find?_some found
    exact congrArg some (only last inside same)

end Switchboard.Json
