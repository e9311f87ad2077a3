import Switchboard.Proofs.Json.Legible

/-!
# `Switchboard.Proofs.Json.Value`: values through and through

`Value.ind` is induction over a value and the values in it. `Value.all` asks something of each of
them and `Value.depth` is how deep they are nested. What is read from a text has the members of its
objects in order, and none of its objects consists of an embedded text alone (`parsed_of_value`),
since that would have been read.
-/

set_option autoImplicit false

namespace Switchboard.Json

/-- A property of all values holds of a container if it holds of what is in it. -/
@[induction_eliminator]
theorem Value.ind {motive : Value → Prop} (null : motive .null)
    (bool : ∀ value, motive (.bool value)) (number : ∀ value, motive (.number value))
    (string : ∀ text, motive (.string text))
    (array : ∀ items, (∀ item ∈ items, motive item) → motive (.array items))
    (object : ∀ members, (∀ member ∈ members, motive member.2) → motive (.object members))
    (value : Value) : motive value :=
  @Value.rec motive (fun items => ∀ item ∈ items, motive item)
    (fun members => ∀ member ∈ members, motive member.2) (fun member => motive member.2)
    null bool number string array object
    (fun _ listed => nomatch listed)
    (fun _ _ first others => List.forall_mem_cons.mpr ⟨first, others⟩)
    (fun _ listed => nomatch listed)
    (fun _ _ first others => List.forall_mem_cons.mpr ⟨first, others⟩)
    (fun _ _ inner => inner) value

/-! ### Properties of all values in a value -/

mutual

/-- Whether something holds of a value and of all values in it. -/
def Value.all (holds : Value → Bool) : Value → Bool
  | .array items => holds (.array items) && allItems holds items
  | .object members => holds (.object members) && allMembers holds members
  | value => holds value

/-- Whether something holds of all values in the items of an array. -/
def allItems (holds : Value → Bool) : List Value → Bool
  | [] => true
  | item :: rest => item.all holds && allItems holds rest

/-- Whether something holds of all values in the members of an object. -/
def allMembers (holds : Value → Bool) : List (String × Value) → Bool
  | [] => true
  | (_, value) :: rest => value.all holds && allMembers holds rest

end

mutual

/-- How many containers are nested in a value one inside the other. -/
def Value.depth : Value → Nat
  | .array items => itemsDepth items + 1
  | .object members => membersDepth members + 1
  | _ => 0

/-- The depth of the deepest item. -/
def itemsDepth : List Value → Nat
  | [] => 0
  | item :: rest => max item.depth (itemsDepth rest)

/-- The depth of the deepest member. -/
def membersDepth : List (String × Value) → Nat
  | [] => 0
  | (_, value) :: rest => max value.depth (membersDepth rest)

end

section
variable {holds : Value → Bool} {items : List Value} {members : List (String × Value)} {room : Nat}

/-- What holds of all items holds of each of them. -/
theorem allItems_iff : allItems holds items ↔ ∀ item ∈ items, item.all holds := by
  induction items with
  | nil => simp [allItems]
  | cons item rest ih => simp [allItems, ih]

/-- What holds of all members holds of the value of each of them. -/
theorem allMembers_iff : allMembers holds members ↔ ∀ member ∈ members, member.2.all holds := by
  induction members with
  | nil => simp [allMembers]
  | cons member rest ih => simp [allMembers, ih]

/-- What holds throughout an array holds of the array and throughout its items. -/
theorem all_array_iff :
    (Value.array items).all holds ↔ holds (.array items) ∧ ∀ item ∈ items, item.all holds := by
  rw [Value.all, Bool.and_eq_true_iff, allItems_iff]

/-- What holds throughout an object holds of the object and throughout its members. -/
theorem all_object_iff : (Value.object members).all holds ↔
    holds (.object members) ∧ ∀ member ∈ members, member.2.all holds := by
  rw [Value.all, Bool.and_eq_true_iff, allMembers_iff]

/-- What is asked of all values may be weakened. -/
theorem Value.all_of_imp {holds' : Value → Bool} (weaker : ∀ value, holds value → holds' value)
    {value : Value} (all : value.all holds) : value.all holds' := by
  induction value with
  | null | bool | number | string => exact weaker _ all
  | array items ih =>
    rw [all_array_iff] at all ⊢
    exact ⟨weaker _ all.1, fun item listed => ih item listed (all.2 item listed)⟩
  | object members ih =>
    rw [all_object_iff] at all ⊢
    exact ⟨weaker _ all.1, fun member listed => ih member listed (all.2 member listed)⟩

/-- An array is one level deeper than its items. -/
theorem depth_array_le_iff :
    (Value.array items).depth ≤ room + 1 ↔ ∀ item ∈ items, item.depth ≤ room := by
  rw [Value.depth, Nat.add_le_add_iff_right]
  induction items with
  | nil => simp [itemsDepth]
  | cons item rest ih => rw [itemsDepth, Nat.max_le, ih, List.forall_mem_cons]

/-- An object is one level deeper than its members. -/
theorem depth_object_le_iff :
    (Value.object members).depth ≤ room + 1 ↔ ∀ member ∈ members, member.2.depth ≤ room := by
  rw [Value.depth, Nat.add_le_add_iff_right]
  induction members with
  | nil => simp [membersDepth]
  | cons member rest ih => rw [membersDepth, Nat.max_le, ih, List.forall_mem_cons]

end

namespace Value

/-- A value in which every number is an integer. -/
def Exact (value : Value) : Prop :=
  value.all fun
    | .number (.float _) => false
    | _ => true

/-- A value in which the members of every object are in order. -/
def Ordered (value : Value) : Prop :=
  value.all fun
    | .object members => members.Pairwise fun a b => compare a.1 b.1 = .lt
    | _ => true

/-- A value in which no object starts with the name that embeds a text. -/
def Unmarked (value : Value) : Prop :=
  value.all fun
    | .object members => members.head?.map Prod.fst != some embeddedName
    | _ => true

/-- A value as it is read: the members of every object are in order, and no object is what embeds
a text and nothing else. -/
def Parsed (value : Value) : Prop :=
  value.all fun
    | .object members => members.Pairwise (fun a b => compare a.1 b.1 = .lt) &&
        members.map Prod.fst != [embeddedName]
    | _ => true

instance (value : Value) : Decidable value.Exact := inferInstanceAs (Decidable (_ = true))

instance (value : Value) : Decidable value.Ordered := inferInstanceAs (Decidable (_ = true))

instance (value : Value) : Decidable value.Unmarked := inferInstanceAs (Decidable (_ = true))

/-- The members of a value that was read are in order. -/
theorem Parsed.ordered {value : Value} (parsed : value.Parsed) : value.Ordered := by
  refine all_of_imp (fun part holds => ?_) parsed
  cases part with
  | object members => exact (Bool.and_eq_true_iff.mp holds).1
  | null | bool | number | string | array => rfl

end Value

/-! ### Members in order -/

namespace Members

variable {α : Type}

/-- Putting members in adds no others. -/
theorem mem_of_mem_foldl_insert {entries sorted : List (String × α)} {entry : String × α}
    (listed : entry ∈ entries.foldl (fun sorted entry => insert entry.1 entry.2 sorted) sorted) :
    entry ∈ entries ∨ entry ∈ sorted := by
  induction entries generalizing sorted with
  | nil => exact .inr listed
  | cons first rest ih =>
    rcases ih listed with later | early
    · exact .inl (List.mem_cons_of_mem first later)
    · rcases mem_insert early with rfl | before
      · exact .inl List.mem_cons_self
      · exact .inr before

/-- No member of an object that was built is made up. -/
theorem mem_of_mem_ofList {entries : List (String × α)} {entry : String × α}
    (listed : entry ∈ ofList entries) : entry ∈ entries := by
  rcases mem_of_mem_foldl_insert listed with given | nothing
  · exact given
  · cases nothing

/-- No name is lost when an object is built. -/
theorem mem_names_ofList {entries : List (String × α)} {entry : String × α}
    (listed : entry ∈ entries) : entry.1 ∈ (ofList entries).map Prod.fst := by
  have found : (get? entry.1 (ofList entries)).isSome := by
    rw [get?_ofList, Option.isSome_map, List.find?_isSome]
    exact ⟨entry, List.mem_reverse.mpr listed, beq_self_eq_true _⟩
  rw [get?, Option.isSome_map, List.find?_isSome] at found
  obtain ⟨other, inside, same⟩ := found
  exact List.mem_map.mpr ⟨other, inside, beq_iff_eq.mp same⟩

/-- A member that comes after all others is put at the end. -/
theorem insert_eq_concat {name : String} {value : α} {sorted : List (String × α)}
    (last : ∀ entry ∈ sorted, compare entry.1 name = .lt) :
    insert name value sorted = sorted ++ [(name, value)] := by
  induction sorted with
  | nil => rfl
  | cons entry rest ih =>
    obtain ⟨first, others⟩ := List.forall_mem_cons.mp last
    have after : compare name entry.1 = .gt := Std.OrientedCmp.gt_of_lt first
    rw [insert, after, ih others]
    rfl

/-- Members that are in order stay as they are when they are put in one by one. -/
theorem foldl_insert_of_ascending {entries sorted : List (String × α)}
    (ascending : Ascending (sorted ++ entries)) :
    entries.foldl (fun sorted entry => insert entry.1 entry.2 sorted) sorted =
      sorted ++ entries := by
  induction entries generalizing sorted with
  | nil => simp
  | cons entry rest ih =>
    have last : ∀ other ∈ sorted, compare other.1 entry.1 = .lt := by
      intro other listed
      exact (List.pairwise_append.mp ascending).2.2 other listed entry List.mem_cons_self
    have step : insert entry.1 entry.2 sorted = sorted ++ [entry] := insert_eq_concat last
    rw [List.foldl_cons, step, ih (by simpa using ascending)]
    simp

/-- Members in order are left as they are. -/
theorem ofList_of_ascending {entries : List (String × α)} (ascending : Ascending entries) :
    ofList entries = entries := by
  have whole : Ascending ([] ++ entries) := ascending
  exact foldl_insert_of_ascending whole

end Members

/-! ### Values that were read -/

variable {readText : List Char → Except Fault Value} {room : Nat}

/-- Each value of an array is read from one of its items. -/
theorem exists_of_toValuesWith {items : List Outline} {values : List Value}
    (read : toValuesWith readText room items = .ok values) {value : Value}
    (listed : value ∈ values) : ∃ item ∈ items, item.toValueWith readText room = .ok value := by
  induction items generalizing values with
  | nil =>
    obtain rfl := Except.ok.inj read
    cases listed
  | cons item rest ih =>
    obtain ⟨first, head, read⟩ := bind_eq_ok read
    obtain ⟨others, later, same⟩ := bind_eq_ok read
    obtain rfl := Except.ok.inj same
    rcases List.mem_cons.mp listed with rfl | listed
    · exact ⟨item, List.mem_cons_self, head⟩
    · obtain ⟨other, inside, read⟩ := ih later listed
      exact ⟨other, List.mem_cons_of_mem item inside, read⟩

/-- An object that embeds a text has nothing else in it, and its value is the one of the text. -/
theorem parse_of_readEmbedded {members : List (List Char × Outline)} {value : Value}
    (read : readEmbedded readText room members = .ok value) :
    ∃ text member, members = [member] ∧
      Reader.stringAs "raw value" room member.2 = .ok text ∧ readText text.toList = .ok value := by
  cases members with
  | nil => cases read
  | cons member rest =>
    obtain ⟨text, spelled, read⟩ := bind_eq_ok read
    obtain ⟨inner, parsed, read⟩ := bind_eq_ok read
    cases rest with
    | nil =>
      obtain rfl := Except.ok.inj read
      exact ⟨text, member, rfl, spelled, parsed⟩
    | cons => cases read

/-- A scalar is as a value is read. -/
theorem parsed_of_scalar {scalar : Scalar} {value : Value} (read : scalar.toValue = .ok value) :
    value.Parsed := by
  cases scalar with
  | null | bool =>
    obtain rfl := Except.ok.inj read
    rfl
  | number written =>
    simp only [Scalar.toValue] at read
    split at read
    · obtain rfl := Except.ok.inj read
      rfl
    · cases read
  | string inside =>
    obtain ⟨text, -, rfl⟩ := map_eq_ok read
    rfl

/-- The members of an object that embeds no text make up a value as it is read. -/
theorem parsed_ofMembers {members : List (List Char × Outline)} {entries : List (String × Value)}
    (usual : isEmbedding members = false) (read : toMembersWith readText room members = .ok entries)
    (parsed : ∀ entry ∈ entries, entry.2.Parsed) : (Value.ofMembers entries).Parsed := by
  refine all_object_iff.mpr ⟨Bool.and_eq_true_iff.mpr ⟨?_, ?_⟩, ?_⟩
  · exact decide_eq_true (Members.ascending_ofList entries)
  · refine bne_iff_ne.mpr fun sole => ?_
    -- The first member keeps its name, so that it would have embedded a text.
    cases members with
    | nil =>
      obtain rfl := Except.ok.inj read
      cases sole
    | cons member rest =>
      obtain ⟨name, named, read⟩ := bind_eq_ok read
      obtain ⟨value, -, read⟩ := bind_eq_ok read
      obtain ⟨others, -, same⟩ := bind_eq_ok read
      obtain rfl := Except.ok.inj same
      have first : (name, value) ∈ (name, value) :: others := List.mem_cons_self
      have kept := Members.mem_names_ofList first
      rw [sole, List.mem_singleton] at kept
      unfold readInside at named
      split at named
      case h_1 text unquoted =>
        have same : text = embeddedName.toList := by
          rw [← kept, ← Except.ok.inj named, String.toList_ofList]
        rw [isEmbedding, unquoted, same, beq_self_eq_true] at usual
        cases usual
      case h_2 => cases named
  · intro entry listed
    exact parsed entry (Members.mem_of_mem_ofList listed)

/-- What is read from an outline is as values are read, whatever texts are embedded in it. -/
theorem parsed_of_value {bound : Nat} {outline : Outline} (short : outline.Short bound)
    {value : Value} (read : Reader.value room outline = .ok value) : value.Parsed := by
  -- An embedded text is shorter than the text around it; inside one text the outline decreases.
  induction bound using Nat.strongRecOn generalizing outline room value with
  | ind bound within =>
    have embedded {text : List Char} (shorter : text.length < bound) {value : Value}
        (read : Value.parse text = .ok value) : value.Parsed := by
      rw [Value.parse_eq] at read
      exact within _ shorter (Document.short_ofText text) (Reader.run_eq_ok_iff.mp read).1
    induction short generalizing room value with
    | scalar => exact parsed_of_scalar read
    | broken => cases read
    | array short ih =>
      cases room with
      | zero => cases read
      | succ room =>
        obtain ⟨values, items, read⟩ := bind_eq_ok read
        obtain ⟨_, -, same⟩ := bind_eq_ok read
        obtain rfl := Except.ok.inj same
        refine all_array_iff.mpr ⟨rfl, fun value listed => ?_⟩
        obtain ⟨item, inside, read⟩ := exists_of_toValuesWith items listed
        exact ih item inside read
    | @object members source? short ih =>
      cases room with
      | zero => cases read
      | succ room =>
        simp only [Reader.value, Outline.toValueWith] at read
        by_cases embeds : isEmbedding members
        · simp only [embeds] at read
          obtain ⟨value, embedding, read⟩ := bind_eq_ok read
          obtain ⟨_, -, same⟩ := bind_eq_ok read
          obtain rfl := Except.ok.inj same
          obtain ⟨text, member, rfl, spelled, parsed⟩ := parse_of_readEmbedded embedding
          exact embedded (length_of_stringAs (short member List.mem_cons_self) spelled) parsed
        · simp only [embeds] at read
          obtain ⟨value, made, read⟩ := bind_eq_ok read
          obtain ⟨_, -, same⟩ := bind_eq_ok read
          obtain rfl := Except.ok.inj same
          obtain ⟨entries, members, rfl⟩ := map_eq_ok made
          refine parsed_ofMembers (by simpa using embeds) members fun entry listed => ?_
          obtain ⟨member, inside, -, read⟩ := (entries_of_toMembersWith members).2 entry listed
          exact ih member inside read

/-- What is read from a text is as a value is read. -/
theorem parsed_of_parse {text : List Char} {value : Value} (read : Value.parse text = .ok value) :
    value.Parsed := by
  rw [Value.parse_eq] at read
  exact parsed_of_value (Document.short_ofText text) (Reader.run_eq_ok_iff.mp read).1

end Switchboard.Json
