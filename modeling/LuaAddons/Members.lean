import LuaAddons.Platform

/-!
# Members of .NET objects

Scripts read and write the members of .NET objects by name (`MetaFunctions.GetMember`,
`TrySetMember` in `NLua/Metatables.cs`). The member that reflection finds for a type and a name is
kept in `memberCache`, for methods the function that calls them.

The cache should not show. Reads and writes share it, though: a write keeps a static method or a
nested type as if instances could use it (`read_plain_iff`), and takes the function that a read has
kept for a member (`write_invalidCast_iff`).

`Types` is what the accesses use of .NET on whatever the .NET side keeps. A reference to a class is
a `ProxyType`, an object of its own that the cache compares by identity.
-/

namespace LuaAddons.Members

/-- The flags that vary: all lookups are public and ignore the case. -/
structure BindingFlags where
  instances : Bool
  statics : Bool
  flattenHierarchy : Bool
  deriving DecidableEq

/-- `method` stands for all types of members that are not tested for. -/
inductive MemberTypes where
  | field
  | property
  | event
  | nestedType
  | method
  deriving DecidableEq

/-- What `property.GetValue` does. -/
inductive Got (V E : Type) where
  | value (v : V)
  /-- `ArgumentException`: the class has no getter. -/
  | argument
  /-- `TargetInvocationException`. -/
  | invocation (e : E)

/-- The `IReflect` that a member is looked up in. -/
inductive Key (T P : Type) where
  | type (t : T)
  | proxy (p : P)
  deriving DecidableEq

structure Types (T P M O σ V E : Type) where
  /-- `Type.GetMember`. -/
  getMember : T → String → BindingFlags → List M
  /-- The type of a `ProxyType`. -/
  proxied : P → T
  memberType : M → MemberTypes
  /-- `BaseType` of every type other than `object`. -/
  baseType : T → Option T
  depth : T → Nat
  depth_lt : ∀ t b, baseType t = some b → depth b < depth t
  /-- `field.GetValue`, `none` for an exception. -/
  getField : M → O → σ → Option V × σ
  getProperty : M → O → σ → Got V E × σ
  /-- `GetAsType` of the value and `SetValue`, with the exception. -/
  setValue : M → O → V → σ → Option E × σ
  isLetter : Char → Bool

/-- The function of `new LuaMethodWrapper(translator, objType, methodName, bindingType)`. -/
structure Wrapper (T P : Type) where
  objType : Key T P
  methodName : String
  bindingType : BindingFlags
  deriving DecidableEq

/-- What `memberCache` holds for a type and a name. -/
inductive Cached (T P M : Type) where
  | function (f : Wrapper T P)
  | member (m : M)

/-- What a read pushes. -/
inductive Access (T P M V E : Type) where
  | value (v : V)
  | nil
  | event (m : M)
  | nestedType (m : M)
  | function (f : Wrapper T P)
  | error (message : String)
  | exception (e : E)

/-- What `TrySetMember` does. -/
inductive Write (E : Type) where
  | done
  | fails (detailMessage : String)
  | exception (e : E)
  /-- The cast of what is cached to `MemberInfo`. -/
  | invalidCast

variable {T P M O σ V E : Type}

def Key.type' (R : Types T P M O σ V E) : Key T P → T
  | .type t => t
  | .proxy p => R.proxied p

/-- The flags with which the members are looked up. -/
def Key.binding : Key T P → BindingFlags
  | .type _ => ⟨true, false, false⟩
  | .proxy _ => ⟨false, true, true⟩

def Key.base (R : Types T P M O σ V E) : Key T P → Option (Key T P)
  | .type t => (R.baseType t).map .type
  | .proxy _ => none

abbrev MemberCache (T P M : Type) := Key T P → String → Option (Cached T P M)

/-- The cache at first. -/
def emptyCache : MemberCache T P M := fun _ _ => none

/-- The member by reflection, and `implicitStatic`. -/
def Types.find (R : Types T P M O σ V E) (objType : Key T P) (name : String) :
    Option (M × Bool) :=
  match R.getMember (objType.type' R) name objType.binding with
  | m :: _ => some (m, false)
  | [] =>
    let members := R.getMember (objType.type' R) name { objType.binding with statics := true }
    members.head?.map (·, true)

theorem Key.depth_base (R : Types T P M O σ V E) {objType b : Key T P}
    (h : objType.base R = some b) :
    R.depth (b.type' R) < R.depth (objType.type' R) := by
  cases objType with
  | proxy p => cases h
  | type t =>
    obtain ⟨t', ht', rfl⟩ := Option.map_eq_some_iff.mp h
    exact R.depth_lt t t' ht'

section Accesses

variable [DecidableEq T] [DecidableEq P] (R : Types T P M O σ V E)

/-- `SetMemberCache`. -/
def setMemberCache (cache : MemberCache T P M) (objType : Key T P) (name : String)
    (member : Cached T P M) : MemberCache T P M :=
  fun k n => if k = objType ∧ n = name then some member else cache k n

/-- `SetMemberCache`, if nothing was cached. -/
def keep (cache : MemberCache T P M) (objType : Key T P) (name : String) (member : Cached T P M) :
    MemberCache T P M :=
  if (cache objType name).isNone then setMemberCache cache objType name member else cache

/-- `GetMember` for one class, on the member that was found: `none` where it goes on with the base
class. -/
def useMember (objType : Key T P) (name : String) (obj : O) (cache : MemberCache T P M) (w : σ)
    (m : M) (implicitStatic : Bool) : Option (Access T P M V E) × MemberCache T P M × σ :=
  let kept := keep cache objType name (.member m)
  match R.memberType m with
  | .field =>
    let (v, w) := R.getField m obj w
    (some (v.elim .nil .value), kept, w)
  | .property =>
    let (v, w) := R.getProperty m obj w
    match v with
    | .value v => (some (.value v), kept, w)
    | .argument => (none, kept, w)
    | .invocation e => (some (.exception e), kept, w)
  | .event => (some (.event m), kept, w)
  | .nestedType =>
    if implicitStatic then
      (some (.error ("can't pass instance to static method " ++ name)), cache, w)
    else (some (.nestedType m), kept, w)
  | .method =>
    if implicitStatic then
      (some (.error ("can't pass instance to static method " ++ name)), cache, w)
    else
      let wrapper : Wrapper T P := ⟨objType, name, objType.binding⟩
      (some (.function wrapper), keep cache objType name (.function wrapper), w)

/-- `GetMember` for one class. -/
def getMemberOf (objType : Key T P) (name : String) (obj : O) (cache : MemberCache T P M) (w : σ) :
    Option (Access T P M V E) × MemberCache T P M × σ :=
  match cache objType name with
  | some (.function f) => (some (.function f), cache, w)
  | some (.member m) => useMember R objType name obj cache w m false
  | none =>
    match R.find objType name with
    | none => (some (.error ("unknown member name " ++ name)), cache, w)
    | some (m, implicitStatic) => useMember R objType name obj cache w m implicitStatic

/-- `GetMember`. -/
def getMember (objType : Key T P) (name : String) (obj : O) (cache : MemberCache T P M) (w : σ) :
    Access T P M V E × MemberCache T P M × σ :=
  match getMemberOf R objType name obj cache w with
  | (some a, cache, w) => (a, cache, w)
  | (none, cache, w) =>
    match _h : objType.base R with
    | none => (.nil, cache, w)
    | some b => getMember b name obj cache w
termination_by R.depth (objType.type' R)
decreasing_by exact Key.depth_base R _h

/-- The names that `TrySetMember` looks up. -/
def isPropertyName (name : String) : Bool :=
  match name.toList with
  | [] => false
  | c :: _ => R.isLetter c || c == '_'

/-- `TrySetMember`, once the member is found. -/
def setMember (name : String) (target : O) (val : V) (w : σ) (m : M) : Write E × σ :=
  match R.memberType m with
  | .field | .property =>
    let (e, w) := R.setValue m target val w
    (e.elim .done .exception, w)
  | _ => (.fails ("'" ++ name ++ "' is not a .net field or property"), w)

/-- `TrySetMember`. The name is `none` where the key is no string. -/
def trySetMember (targetType : Key T P) (fieldName : Option String) (target : O) (val : V)
    (cache : MemberCache T P M) (w : σ) : Write E × MemberCache T P M × σ :=
  match fieldName with
  | none => (.fails "property names must be strings", cache, w)
  | some name =>
    if !isPropertyName R name then (.fails "invalid property name", cache, w)
    else
      match cache targetType name with
      | some (.function _) => (.invalidCast, cache, w)
      | some (.member m) =>
        let (r, w) := setMember R name target val w m
        (r, cache, w)
      | none =>
        match R.find targetType name with
        | none => (.fails ("field or property '" ++ name ++ "' does not exist"), cache, w)
        | some (m, _) =>
          let (r, w) := setMember R name target val w m
          (r, setMemberCache cache targetType name (.member m), w)

/-! ## Runs -/

/-- A script reads or writes a member, or the .NET side goes on. -/
inductive Op (T P O σ V : Type) where
  | read (objType : Key T P) (name : String) (obj : O)
  | write (targetType : Key T P) (fieldName : Option String) (target : O) (val : V)
  | other (change : σ → σ)

def Op.apply (op : Op T P O σ V) (s : MemberCache T P M × σ) : MemberCache T P M × σ :=
  match op with
  | .read objType name obj => (getMember R objType name obj s.1 s.2).2
  | .write targetType fieldName target val =>
    (trySetMember R targetType fieldName target val s.1 s.2).2
  | .other change => (s.1, change s.2)

/-- The state after the operations, the first one first. -/
def run (w : σ) (history : List (Op T P O σ V)) : MemberCache T P M × σ :=
  history.foldl (fun s op => op.apply R s) (emptyCache, w)

end Accesses

/-! ## What is cached -/

section Caching

variable (R : Types T P M O σ V E)

/-- A member that only an access through the class may use: an instance has no other of the name. -/
def Hidden (k : Key T P) (name : String) : Prop :=
  ∃ m, R.find k name = some (m, true) ∧
    (R.memberType m = .nestedType ∨ R.memberType m = .method)

theorem Hidden.found {R : Types T P M O σ V E} {k : Key T P} {name : String}
    (h : Hidden R k name) : R.find k name ≠ none := by
  obtain ⟨m, hfind, -⟩ := h
  rw [hfind]
  exact Option.some_ne_none _

/-- What a read keeps. -/
def ReadEntry (k : Key T P) (name : String) : Cached T P M → Prop
  | .function f =>
    f = ⟨k, name, k.binding⟩ ∧ ∃ m, R.find k name = some (m, false) ∧ R.memberType m = .method
  | .member m => ∃ implicitStatic, R.find k name = some (m, implicitStatic) ∧
      R.memberType m ≠ .method ∧ (R.memberType m = .nestedType → implicitStatic = false)

/-- What a write keeps. -/
def WriteEntry (k : Key T P) (name : String) (e : Cached T P M) : Prop :=
  ∃ m implicitStatic, e = .member m ∧ R.find k name = some (m, implicitStatic)

/-- All that is cached was found by reflection. -/
def WellFormed (cache : MemberCache T P M) : Prop :=
  ∀ k name e, cache k name = some e → ReadEntry R k name e ∨ WriteEntry R k name e

variable [DecidableEq T] [DecidableEq P] {R}

theorem setMemberCache_self (cache : MemberCache T P M) (k : Key T P) (name : String)
    (e : Cached T P M) : setMemberCache cache k name e k name = some e :=
  if_pos ⟨rfl, rfl⟩

theorem setMemberCache_other {cache : MemberCache T P M} {k k' : Key T P} {name name' : String}
    {e : Cached T P M} (h : ¬ (k' = k ∧ name' = name)) :
    setMemberCache cache k name e k' name' = cache k' name' :=
  if_neg h

/-- A lookup keeps what was cached, and adds one entry at most. -/
def Adds (k : Key T P) (name : String) (Entry : Cached T P M → Prop)
    (cache cache' : MemberCache T P M) : Prop :=
  cache' = cache ∨
    ∃ e, cache k name = none ∧ Entry e ∧ cache' = setMemberCache cache k name e

theorem adds_keep {k : Key T P} {name : String} {Entry : Cached T P M → Prop}
    (cache : MemberCache T P M) {e : Cached T P M} (he : cache k name = none → Entry e) :
    Adds k name Entry cache (keep cache k name e) := by
  unfold keep
  cases h : cache k name with
  | none => exact Or.inr ⟨e, h, he h, rfl⟩
  | some _ => exact Or.inl rfl

theorem useMember_adds {k : Key T P} {name : String} {obj : O} {cache : MemberCache T P M} {w : σ}
    {m : M} {implicitStatic : Bool}
    (hfind : cache k name = none → R.find k name = some (m, implicitStatic)) :
    Adds k name (ReadEntry R k name) cache
      (useMember R k name obj cache w m implicitStatic).2.1 := by
  have hmember (hm : R.memberType m ≠ .method)
      (hn : R.memberType m = .nestedType → implicitStatic = false) :
      Adds k name (ReadEntry R k name) cache (keep cache k name (.member m)) :=
    adds_keep cache (fun hnone => ⟨implicitStatic, hfind hnone, hm, hn⟩)
  unfold useMember
  cases hm : R.memberType m with
  | field => exact hmember (by simp [hm]) (by simp [hm])
  | property =>
    have hkept := hmember (by simp [hm]) (by simp [hm])
    dsimp only
    cases (R.getProperty m obj w).1 <;> exact hkept
  | event => exact hmember (by simp [hm]) (by simp [hm])
  | nestedType =>
    cases implicitStatic with
    | true => exact Or.inl rfl
    | false => exact hmember (by simp [hm]) (by simp)
  | method =>
    cases implicitStatic with
    | true => exact Or.inl rfl
    | false => exact adds_keep cache (fun hnone => ⟨rfl, m, hfind hnone, hm⟩)

theorem getMemberOf_adds (k : Key T P) (name : String) (obj : O) (cache : MemberCache T P M)
    (w : σ) :
    Adds k name (ReadEntry R k name) cache (getMemberOf R k name obj cache w).2.1 := by
  unfold getMemberOf
  cases hcached : cache k name with
  | some e =>
    cases e with
    | function f => exact Or.inl rfl
    | member m => exact useMember_adds (fun hnone => by rw [hcached] at hnone; cases hnone)
  | none =>
    dsimp only
    cases hfind : R.find k name with
    | none => exact Or.inl rfl
    | some found => exact useMember_adds (fun _ => hfind)

theorem trySetMember_adds (k : Key T P) (name : String) (target : O) (val : V)
    (cache : MemberCache T P M) (w : σ) :
    Adds k name (WriteEntry R k name) cache
      (trySetMember R k (some name) target val cache w).2.1 := by
  unfold trySetMember
  dsimp only
  split
  · exact Or.inl rfl
  · cases hcached : cache k name with
    | some e =>
      cases e with
      | function f => exact Or.inl rfl
      | member m => exact Or.inl rfl
    | none =>
      dsimp only
      cases hfind : R.find k name with
      | none => exact Or.inl rfl
      | some found => exact Or.inr ⟨.member found.1, hcached, ⟨found.1, found.2, rfl, hfind⟩, rfl⟩

theorem WellFormed.adds {k : Key T P} {name : String} {Entry : Cached T P M → Prop}
    {cache cache' : MemberCache T P M} (h : WellFormed R cache)
    (hentry : ∀ e, Entry e → ReadEntry R k name e ∨ WriteEntry R k name e)
    (hadds : Adds k name Entry cache cache') : WellFormed R cache' := by
  rcases hadds with rfl | ⟨e, -, he, rfl⟩
  · exact h
  · intro k' name' e' hget
    by_cases hsame : k' = k ∧ name' = name
    · obtain ⟨rfl, rfl⟩ := hsame
      rw [setMemberCache_self] at hget
      cases hget
      exact hentry e he
    · rw [setMemberCache_other hsame] at hget
      exact h k' name' e' hget

/-! ## The plain lookup -/

variable (R) in
/-- `GetMember` without a cache. -/
def plainMember (objType : Key T P) (name : String) (obj : O) (w : σ) : Access T P M V E × σ :=
  match getMemberOf R objType name obj emptyCache w with
  | (some a, _, w) => (a, w)
  | (none, _, w) =>
    match _h : objType.base R with
    | none => (.nil, w)
    | some b => plainMember b name obj w
termination_by R.depth (objType.type' R)
decreasing_by exact Key.depth_base R _h

variable (R) in
/-- The classes that a read without a cache comes to. -/
inductive Comes (name : String) (obj : O) : Key T P → σ → Key T P → Prop where
  | here (k : Key T P) (w : σ) : Comes name obj k w k
  | base {k b k' : Key T P} {w w' : σ} (cache : MemberCache T P M) :
      getMemberOf R k name obj emptyCache w = (none, cache, w') → k.base R = some b →
        Comes name obj b w' k' → Comes name obj k w k'

variable {k : Key T P} {name : String} {obj : O} {cache cache' : MemberCache T P M} {w : σ}

theorem useMember_cache (cache cache' : MemberCache T P M) (w : σ) (m : M) (implicitStatic : Bool) :
    (useMember R k name obj cache w m implicitStatic).1 =
        (useMember R k name obj cache' w m implicitStatic).1 ∧
      (useMember R k name obj cache w m implicitStatic).2.2 =
        (useMember R k name obj cache' w m implicitStatic).2.2 := by
  unfold useMember
  cases R.memberType m with
  | property =>
    dsimp only
    cases (R.getProperty m obj w).1 <;> exact ⟨rfl, rfl⟩
  | nestedType => cases implicitStatic <;> exact ⟨rfl, rfl⟩
  | method => cases implicitStatic <;> exact ⟨rfl, rfl⟩
  | _ => exact ⟨rfl, rfl⟩

/-- How a member was found makes no difference to fields, properties and events. -/
theorem useMember_static {m : M} (h : ¬ (R.memberType m = .nestedType ∨ R.memberType m = .method))
    (cache : MemberCache T P M) (w : σ) (implicitStatic : Bool) :
    useMember R k name obj cache w m implicitStatic = useMember R k name obj cache w m false := by
  unfold useMember
  cases hm : R.memberType m with
  | nestedType => exact absurd (Or.inl hm) h
  | method => exact absurd (Or.inr hm) h
  | _ => rfl

theorem getMemberOf_empty {m : M} {implicitStatic : Bool}
    (hfind : R.find k name = some (m, implicitStatic)) :
    getMemberOf R k name obj emptyCache w =
      useMember R k name obj emptyCache w m implicitStatic := by
  rw [getMemberOf, emptyCache, hfind]

/-- What is cached gives what reflection gives, unless an instance may not use it. -/
theorem getMemberOf_plain (obj : O) (w : σ) (h : WellFormed R cache)
    (hplain : ¬ (Hidden R k name ∧ cache k name ≠ none)) :
    (getMemberOf R k name obj cache w).1 = (getMemberOf R k name obj emptyCache w).1 ∧
      (getMemberOf R k name obj cache w).2.2 = (getMemberOf R k name obj emptyCache w).2.2 := by
  cases hcached : cache k name with
  | none =>
    have hget : getMemberOf R k name obj cache w =
        (R.find k name).elim (some (.error ("unknown member name " ++ name)), cache, w)
          (fun found => useMember R k name obj cache w found.1 found.2) := by
      rw [getMemberOf, hcached]
      cases R.find k name <;> rfl
    cases hfind : R.find k name with
    | none =>
      rw [hget, hfind, getMemberOf, emptyCache, hfind]
      exact ⟨rfl, rfl⟩
    | some found =>
      rw [hget, getMemberOf_empty hfind, hfind]
      exact useMember_cache _ _ _ _ _
  | some e =>
    cases e with
    | function f =>
      rcases h k name _ hcached with ⟨rfl, m, hfind, hm⟩ | ⟨m, _, hne, -⟩
      · rw [getMemberOf_empty hfind, getMemberOf, hcached]
        dsimp only
        rw [useMember, hm]
        exact ⟨rfl, rfl⟩
      · cases hne
    | member m =>
      have hfound : ∃ implicitStatic, R.find k name = some (m, implicitStatic) := by
        rcases h k name _ hcached with ⟨implicitStatic, hfind, -⟩ | ⟨m', implicitStatic, hm, hfind⟩
        · exact ⟨implicitStatic, hfind⟩
        · cases hm
          exact ⟨implicitStatic, hfind⟩
      obtain ⟨implicitStatic, hfind⟩ := hfound
      have hsame : useMember R k name obj emptyCache w m implicitStatic =
          useMember R k name obj emptyCache w m false := by
        cases implicitStatic with
        | false => rfl
        | true =>
          refine useMember_static (fun hm => hplain ⟨⟨m, hfind, hm⟩, ?_⟩) _ _ _
          rw [hcached]
          exact Option.some_ne_none _
      rw [getMemberOf_empty hfind, hsame, getMemberOf, hcached]
      exact useMember_cache _ _ _ _ _

/-- The error of the plain lookup is missing where such a member is cached. -/
theorem getMemberOf_hidden (obj : O) (w : σ) (h : WellFormed R cache) (hhidden : Hidden R k name)
    (hcached : cache k name ≠ none) :
    (getMemberOf R k name obj emptyCache w).1 =
        some (.error ("can't pass instance to static method " ++ name)) ∧
      ∃ a, (getMemberOf R k name obj cache w).1 = some a ∧ ∀ message, a ≠ .error message := by
  obtain ⟨m, hfind, hm⟩ := hhidden
  refine ⟨?_, ?_⟩
  · rw [getMemberOf_empty hfind, useMember]
    rcases hm with hm | hm <;> rw [hm] <;> rfl
  · obtain ⟨e, he⟩ := Option.ne_none_iff_exists'.mp hcached
    have hentry : e = .member m := by
      rcases h k name e he with hread | ⟨m', _, rfl, hfind'⟩
      · cases e with
        | function f =>
          obtain ⟨-, m', hfind', -⟩ := hread
          rw [hfind] at hfind'
          cases hfind'
        | member m' =>
          obtain ⟨_, hfind', -⟩ := hread
          rw [hfind] at hfind'
          cases hfind'
          rfl
      · rw [hfind] at hfind'
        cases hfind'
        rfl
    rw [getMemberOf, he, hentry]
    dsimp only
    rw [useMember]
    rcases hm with hm | hm <;> rw [hm]
    · exact ⟨_, rfl, by simp⟩
    · exact ⟨_, rfl, by simp⟩

/-- Reads never keep such a member. -/
theorem Adds.hidden {k' : Key T P} {name' : String}
    (h : Adds k name (ReadEntry R k name) cache cache') (hhidden : Hidden R k' name') :
    cache' k' name' = cache k' name' := by
  rcases h with rfl | ⟨e, -, he, rfl⟩
  · rfl
  · refine setMemberCache_other (fun hsame => ?_)
    obtain ⟨rfl, rfl⟩ := hsame
    obtain ⟨m, hfind, hm⟩ := hhidden
    cases e with
    | function f =>
      obtain ⟨-, m', hfind', -⟩ := he
      rw [hfind] at hfind'
      cases hfind'
    | member m' =>
      obtain ⟨_, hfind', hmethod, hnested⟩ := he
      rw [hfind] at hfind'
      cases hfind'
      rcases hm with hm | hm
      · cases hnested hm
      · exact hmethod hm

/-- A relation that each lookup keeps and that chains holds across a read. -/
theorem getMember_rule {Q : MemberCache T P M → MemberCache T P M → Prop} (name : String) (obj : O)
    (hstep : ∀ k c c', Adds k name (ReadEntry R k name) c c' → Q c c')
    (htrans : ∀ c c' c'', Q c c' → Q c' c'' → Q c c'') :
    Q cache (getMember R k name obj cache w).2.1 := by
  fun_induction getMember R k name obj cache w with
  | case1 k cache w a cache' w' hget =>
    have hadds := getMemberOf_adds (R := R) k name obj cache w
    rw [hget] at hadds
    exact hstep k cache cache' hadds
  | case2 k cache w cache' w' hget hbase =>
    have hadds := getMemberOf_adds (R := R) k name obj cache w
    rw [hget] at hadds
    exact hstep k cache cache' hadds
  | case3 k cache w cache' w' hget b hbase ih =>
    have hadds := getMemberOf_adds (R := R) k name obj cache w
    rw [hget] at hadds
    exact htrans cache cache' _ (hstep k cache cache' hadds) ih

theorem getMember_keeps (name : String) (obj : O) (h : WellFormed R cache) :
    WellFormed R (getMember R k name obj cache w).2.1 ∧
      ∀ k' name', Hidden R k' name' →
        (getMember R k name obj cache w).2.1 k' name' = cache k' name' := by
  refine ⟨getMember_rule (Q := fun c c' => WellFormed R c → WellFormed R c') name obj ?_ ?_ h,
    fun k' name' hk =>
      getMember_rule (Q := fun c c' => c' k' name' = c k' name') name obj ?_ ?_⟩
  · exact fun k c c' hadds hc => hc.adds (fun _ => Or.inl) hadds
  · exact fun _ _ _ hfirst hsecond hc => hsecond (hfirst hc)
  · exact fun k c c' hadds => hadds.hidden hk
  · exact fun _ _ _ hfirst hsecond => hsecond.trans hfirst

theorem getMember_eq (k : Key T P) (name : String) (obj : O) (cache : MemberCache T P M) (w : σ) :
    getMember R k name obj cache w =
      (getMemberOf R k name obj cache w).1.elim
        ((k.base R).elim (.nil, (getMemberOf R k name obj cache w).2)
          (fun b => getMember R b name obj (getMemberOf R k name obj cache w).2.1
            (getMemberOf R k name obj cache w).2.2))
        (fun a => (a, (getMemberOf R k name obj cache w).2)) := by
  rw [getMember]
  split
  · rename_i hget
    rw [hget]
    rfl
  · rename_i hget
    rw [hget]
    split
    · rename_i hbase
      rw [hbase]
      rfl
    · rename_i hbase
      rw [hbase]
      rfl

theorem plainMember_eq (k : Key T P) (name : String) (obj : O) (w : σ) :
    plainMember R k name obj w =
      (getMemberOf R k name obj emptyCache w).1.elim
        ((k.base R).elim (.nil, (getMemberOf R k name obj emptyCache w).2.2)
          (fun b => plainMember R b name obj (getMemberOf R k name obj emptyCache w).2.2))
        (fun a => (a, (getMemberOf R k name obj emptyCache w).2.2)) := by
  rw [plainMember]
  split
  · rename_i hget
    rw [hget]
    rfl
  · rename_i hget
    rw [hget]
    split
    · rename_i hbase
      rw [hbase]
      rfl
    · rename_i hbase
      rw [hbase]
      rfl

/-- A read that does not go on to the base class comes to one class only. -/
theorem Comes.stops {k' : Key T P}
    (hstop : (getMemberOf R k name obj emptyCache w).1 = none → k.base R = none)
    (h : Comes R name obj k w k') : k' = k := by
  cases h with
  | here => rfl
  | base _ hget hbase _ =>
    rw [hget] at hstop
    rw [hstop rfl] at hbase
    cases hbase

theorem Comes.base_iff {b k' : Key T P} (hget : (getMemberOf R k name obj emptyCache w).1 = none)
    (hbase : k.base R = some b) :
    Comes R name obj k w k' ↔
      k' = k ∨ Comes R name obj b (getMemberOf R k name obj emptyCache w).2.2 k' := by
  constructor
  · intro h
    cases h with
    | here => exact Or.inl rfl
    | base _ hget' hbase' h =>
      rw [hbase] at hbase'
      cases hbase'
      rw [hget']
      exact Or.inr h
  · rintro (rfl | h)
    · exact Comes.here _ _
    · exact Comes.base (getMemberOf R k name obj emptyCache w).2.1 (Prod.ext hget rfl) hbase h

/-- A read gives what reflection gives, unless it comes to a class where a member is cached that an
instance may not use. -/
theorem getMember_plain_iff (h : WellFormed R cache) :
    ((getMember R k name obj cache w).1, (getMember R k name obj cache w).2.2) =
        plainMember R k name obj w ↔
      ¬ ∃ k', Comes R name obj k w k' ∧ Hidden R k' name ∧ cache k' name ≠ none := by
  induction hd : R.depth (k.type' R) using Nat.strong_induction_on generalizing k cache w with
  | h d ih =>
    by_cases hhere : Hidden R k name ∧ cache k name ≠ none
    · obtain ⟨herror, a, ha, hne⟩ := getMemberOf_hidden obj w h hhere.1 hhere.2
      refine iff_of_false (fun hsame => ?_) (not_not_intro ⟨k, Comes.here k w, hhere⟩)
      rw [getMember_eq, ha, plainMember_eq, herror] at hsame
      exact hne _ (congrArg Prod.fst hsame)
    · obtain ⟨haccess, hworld⟩ := getMemberOf_plain obj w h hhere
      have hstopped (hstop : (getMemberOf R k name obj emptyCache w).1 = none → k.base R = none) :
          ¬ ∃ k', Comes R name obj k w k' ∧ Hidden R k' name ∧ cache k' name ≠ none := by
        rintro ⟨k', hcomes, hk'⟩
        exact hhere (hcomes.stops hstop ▸ hk')
      cases hget : (getMemberOf R k name obj emptyCache w).1 with
      | some a =>
        refine iff_of_true ?_ (hstopped (fun hnone => by rw [hget] at hnone; cases hnone))
        rw [getMember_eq, haccess, plainMember_eq, hget]
        exact congrArg (Prod.mk a) hworld
      | none =>
        have hget' := haccess.trans hget
        cases hbase : k.base R with
        | none =>
          refine iff_of_true ?_ (hstopped (fun _ => hbase))
          rw [getMember_eq, hget', plainMember_eq, hget, hbase]
          exact congrArg (Prod.mk Access.nil) hworld
        | some b =>
          have hadds := getMemberOf_adds (R := R) k name obj cache w
          have hwell : WellFormed R (getMemberOf R k name obj cache w).2.1 :=
            h.adds (fun _ => Or.inl) hadds
          rw [getMember_eq, hget', plainMember_eq, hget, hbase, ← hworld]
          refine (ih _ (hd ▸ Key.depth_base R hbase) hwell rfl).trans (not_congr ?_)
          constructor
          · rintro ⟨k', hcomes, hhidden, hcached⟩
            rw [hworld] at hcomes
            rw [hadds.hidden hhidden] at hcached
            exact ⟨k', (Comes.base_iff hget hbase).mpr (Or.inr hcomes), hhidden, hcached⟩
          · rintro ⟨k', hcomes, hhidden, hcached⟩
            rcases (Comes.base_iff hget hbase).mp hcomes with rfl | hcomes
            · exact absurd ⟨hhidden, hcached⟩ hhere
            · rw [← hworld] at hcomes
              exact ⟨k', hcomes, hhidden, by rwa [hadds.hidden hhidden]⟩

/-! ## Histories -/

variable (R) in
/-- The operation tries to write the member. -/
def Op.Writes (op : Op T P O σ V) (k : Key T P) (name : String) : Prop :=
  isPropertyName R name = true ∧ ∃ target val, op = .write k (some name) target val

section Writes

variable {k₀ : Key T P} {name₀ : String} {fieldName : Option String} {target : O} {val : V}

omit [DecidableEq T] [DecidableEq P] in
theorem writes_write :
    (Op.write k₀ fieldName target val : Op T P O σ V).Writes R k name ↔
      isPropertyName R name = true ∧ k = k₀ ∧ fieldName = some name := by
  constructor
  · rintro ⟨hname, _, _, hop⟩
    cases hop
    exact ⟨hname, rfl, rfl⟩
  · rintro ⟨hname, rfl, rfl⟩
    exact ⟨hname, target, val, rfl⟩

omit [DecidableEq T] [DecidableEq P] in
theorem not_writes_read : ¬ (Op.read k₀ name₀ obj : Op T P O σ V).Writes R k name := by
  rintro ⟨-, _, _, hop⟩
  cases hop

omit [DecidableEq T] [DecidableEq P] in
theorem not_writes_other {change : σ → σ} :
    ¬ (Op.other change : Op T P O σ V).Writes R k name := by
  rintro ⟨-, _, _, hop⟩
  cases hop

end Writes

theorem trySetMember_found (k : Key T P) (name : String) (target : O) (val : V)
    (cache : MemberCache T P M) (w : σ) {k' : Key T P} {name' : String}
    (hfound : R.find k' name' ≠ none) :
    (trySetMember R k (some name) target val cache w).2.1 k' name' ≠ none ↔
      cache k' name' ≠ none ∨
        (isPropertyName R name' = true ∧ k' = k ∧ some name = some name') := by
  have hadds := trySetMember_adds (R := R) k name target val cache w
  by_cases hsame : k' = k ∧ name' = name
  · obtain ⟨rfl, rfl⟩ := hsame
    obtain ⟨found, hfind⟩ := Option.ne_none_iff_exists'.mp hfound
    unfold trySetMember
    dsimp only
    cases hname : isPropertyName R name' with
    | false => simp
    | true =>
      cases hcached : cache k' name' with
      | some e => cases e <;> simp [hcached]
      | none => simp [hfind, setMemberCache_self]
  · have hother : (trySetMember R k (some name) target val cache w).2.1 k' name' =
        cache k' name' := by
      rcases hadds with h | ⟨e, -, -, h⟩
      · rw [h]
      · rw [h, setMemberCache_other hsame]
    rw [hother, or_iff_left (fun h => hsame ⟨h.2.1, (Option.some.inj h.2.2).symm⟩)]

theorem apply_keeps (op : Op T P O σ V) {s : MemberCache T P M × σ} (h : WellFormed R s.1) :
    WellFormed R (op.apply R s).1 ∧ ∀ k name, Hidden R k name →
      ((op.apply R s).1 k name ≠ none ↔ s.1 k name ≠ none ∨ op.Writes R k name) := by
  cases op with
  | other change => exact ⟨h, fun k name _ => (or_iff_left not_writes_other).symm⟩
  | read k₀ name₀ obj =>
    obtain ⟨hwell, hhidden⟩ := getMember_keeps (k := k₀) name₀ obj (w := s.2) h
    refine ⟨hwell, fun k name hk => ?_⟩
    rw [or_iff_left not_writes_read]
    exact not_congr (by rw [← hhidden k name hk]; rfl)
  | write k₀ fieldName target val =>
    cases fieldName with
    | none =>
      refine ⟨h, fun k name _ => (or_iff_left ?_).symm⟩
      rw [writes_write]
      simp
    | some name₀ =>
      refine ⟨h.adds (fun _ => Or.inr) (trySetMember_adds k₀ name₀ target val s.1 s.2),
        fun k name hk => ?_⟩
      rw [writes_write]
      exact trySetMember_found k₀ name₀ target val s.1 s.2 hk.found

theorem run_append (w : σ) (history : List (Op T P O σ V)) (op : Op T P O σ V) :
    run R w (history ++ [op]) = op.apply R (run R w history) := by
  rw [run, run, List.foldl_append, List.foldl_cons, List.foldl_nil]

/-- The members that instances may not use are cached by the writes that try to write them. -/
theorem run_keeps (w : σ) (history : List (Op T P O σ V)) :
    WellFormed R (run R w history).1 ∧ ∀ k name, Hidden R k name →
      ((run R w history).1 k name ≠ none ↔ ∃ op ∈ history, op.Writes R k name) := by
  induction history using List.reverseRecOn with
  | nil =>
    refine ⟨fun k name e h => ?_, fun k name _ => iff_of_false (by simp [run, emptyCache]) ?_⟩
    · cases h
    · rintro ⟨_, hop, -⟩
      exact List.not_mem_nil hop
  | append_singleton history op ih =>
    obtain ⟨hwell, hcached⟩ := ih
    obtain ⟨hwell', hcached'⟩ := apply_keeps op hwell
    rw [run_append]
    refine ⟨hwell', fun k name hk => ?_⟩
    rw [hcached' k name hk, hcached k name hk]
    simp [or_and_right, exists_or]

/-- After any history, a read gives what reflection gives, exactly when it does not come to a class
where the name is `Hidden` and a script has tried to write it under the key of the read. -/
theorem read_plain_iff (w : σ) (history : List (Op T P O σ V)) (k : Key T P) (name : String)
    (obj : O) :
    ((getMember R k name obj (run R w history).1 (run R w history).2).1,
        (getMember R k name obj (run R w history).1 (run R w history).2).2.2) =
        plainMember R k name obj (run R w history).2 ↔
      ¬ ∃ k', Comes R name obj k (run R w history).2 k' ∧ Hidden R k' name ∧
        ∃ op ∈ history, op.Writes R k' name := by
  obtain ⟨hwell, hcached⟩ := run_keeps (R := R) w history
  refine (getMember_plain_iff hwell).trans (not_congr (exists_congr (fun k' => ?_)))
  exact and_congr_right (fun _ => and_congr_right (fun hk => hcached k' name hk))

end Caching

/-- One class with a static method that no instance has. -/
def oneClass : Types Unit Empty Unit Unit Unit Unit Unit where
  getMember := fun _ _ flags => if flags.statics then [()] else []
  proxied := Empty.elim
  memberType := fun _ => .method
  baseType := fun _ => none
  depth := fun _ => 0
  depth_lt := by simp
  getField := fun _ _ w => (none, w)
  getProperty := fun _ _ w => (.argument, w)
  setValue := fun _ _ _ w => (none, w)
  isLetter := Char.isAlpha

theorem oneClass_read_after_write :
    ((getMember oneClass (.type ()) "Broadcast" ()
          (run oneClass () [.write (.type ()) (some "Broadcast") () ()]).1 ()).1,
        (getMember oneClass (.type ()) "Broadcast" ()
          (run oneClass () [.write (.type ()) (some "Broadcast") () ()]).1 ()).2.2) ≠
      plainMember oneClass (.type ()) "Broadcast" () () := by
  have hread := read_plain_iff (R := oneClass) () [.write (.type ()) (some "Broadcast") () ()]
    (.type ()) "Broadcast" ()
  refine (not_congr hread).mpr (not_not_intro ⟨.type (), Comes.here _ _, ?_, ?_⟩)
  · exact ⟨(), rfl, Or.inr rfl⟩
  · exact ⟨_, List.mem_singleton_self _, by decide, (), (), rfl⟩

/-! ## Methods -/

section Methods

variable [DecidableEq T] [DecidableEq P] {R : Types T P M O σ V E} {k k' : Key T P}
  {name name' : String} {obj : O} {cache : MemberCache T P M} {w : σ}

variable (R) in
/-- The name of a method for instances of the class. -/
def IsMethod (k : Key T P) (name : String) : Prop :=
  ∃ m, R.find k name = some (m, false) ∧ R.memberType m = .method

def HasFunction (cache : MemberCache T P M) (k : Key T P) (name : String) : Prop :=
  ∃ f, cache k name = some (.function f)

omit [DecidableEq T] [DecidableEq P] in
theorem IsMethod.found (h : IsMethod R k name) : R.find k name ≠ none := by
  obtain ⟨m, hfind, -⟩ := h
  rw [hfind]
  exact Option.some_ne_none _

theorem Adds.other {Entry : Cached T P M → Prop} {cache' : MemberCache T P M}
    (h : Adds k name Entry cache cache') (hother : ¬ (k' = k ∧ name' = name)) :
    cache' k' name' = cache k' name' := by
  rcases h with rfl | ⟨e, -, -, rfl⟩
  · rfl
  · exact setMemberCache_other hother

/-- The function of a method is kept when nothing else is. -/
theorem getMemberOf_method (obj : O) (w : σ) (h : WellFormed R cache)
    (hmethod : IsMethod R k' name) :
    (HasFunction (getMemberOf R k name obj cache w).2.1 k' name ↔
      HasFunction cache k' name ∨ (cache k' name = none ∧ k' = k)) ∧
    ((getMemberOf R k name obj cache w).2.1 k' name = none ↔ cache k' name = none ∧ k' ≠ k) := by
  by_cases hsame : k' = k
  · subst hsame
    obtain ⟨m, hfind, hm⟩ := hmethod
    unfold getMemberOf
    cases hcached : cache k' name with
    | none =>
      simp only [hfind, useMember, hm, Bool.false_eq_true, if_false, keep, hcached,
        Option.isNone_none, if_true, HasFunction, setMemberCache_self]
      simp
    | some e =>
      cases e with
      | function f => simp [HasFunction, hcached]
      | member m' =>
        have hm' : m' = m := by
          rcases h k' name _ hcached with ⟨_, hfind', -⟩ | ⟨_, _, he, hfind'⟩
          · rw [hfind] at hfind'
            cases hfind'
            rfl
          · cases he
            rw [hfind] at hfind'
            cases hfind'
            rfl
        subst hm'
        simp [useMember, hm, keep, hcached, HasFunction]
  · have hother := (getMemberOf_adds (R := R) k name obj cache w).other
      (fun h : k' = k ∧ name = name => hsame h.1)
    simp [HasFunction, hother, hsame]

/-- With a cache, a read goes on to the base class where it does so without one. -/
theorem getMemberOf_goesOn (name : String) (obj : O) (w : σ) (h : WellFormed R cache) :
    ((getMemberOf R k name obj cache w).1 = none ↔
      (getMemberOf R k name obj emptyCache w).1 = none) ∧
    ((getMemberOf R k name obj emptyCache w).1 = none →
      (getMemberOf R k name obj cache w).2.2 = (getMemberOf R k name obj emptyCache w).2.2) := by
  by_cases hhere : Hidden R k name ∧ cache k name ≠ none
  · obtain ⟨herror, a, ha, -⟩ := getMemberOf_hidden obj w h hhere.1 hhere.2
    rw [herror, ha]
    simp
  · obtain ⟨haccess, hworld⟩ := getMemberOf_plain obj w h hhere
    rw [haccess]
    exact ⟨Iff.rfl, fun _ => hworld⟩

/-- A read keeps the functions of the methods that it comes to. -/
theorem getMember_method (obj : O) (h : WellFormed R cache) (hmethod : IsMethod R k' name) :
    (HasFunction (getMember R k name obj cache w).2.1 k' name ↔
      HasFunction cache k' name ∨ (cache k' name = none ∧ Comes R name obj k w k')) ∧
    ((getMember R k name obj cache w).2.1 k' name = none ↔
      cache k' name = none ∧ ¬ Comes R name obj k w k') := by
  induction hd : R.depth (k.type' R) using Nat.strong_induction_on generalizing k cache w with
  | h d ih =>
    obtain ⟨hfunction, hnone⟩ := getMemberOf_method (k := k) obj w h hmethod
    obtain ⟨hgoes, hworld⟩ := getMemberOf_goesOn (k := k) name obj w h
    have hstopped (hstop : (getMemberOf R k name obj emptyCache w).1 = none → k.base R = none) :
        Comes R name obj k w k' ↔ k' = k :=
      ⟨fun hcomes => hcomes.stops hstop, fun hk => hk ▸ Comes.here _ _⟩
    cases hget : (getMemberOf R k name obj cache w).1 with
    | some a =>
      have hstop : (getMemberOf R k name obj emptyCache w).1 ≠ none := by
        intro hno
        rw [hgoes.mpr hno] at hget
        cases hget
      rw [getMember_eq, hget, hstopped (fun hno => absurd hno hstop)]
      exact ⟨hfunction, hnone⟩
    | none =>
      have hplain := hgoes.mp hget
      cases hbase : k.base R with
      | none =>
        rw [getMember_eq, hget, hbase, hstopped (fun _ => hbase)]
        exact ⟨hfunction, hnone⟩
      | some b =>
        have hwell : WellFormed R (getMemberOf R k name obj cache w).2.1 :=
          h.adds (fun _ => Or.inl) (getMemberOf_adds k name obj cache w)
        obtain ⟨hfunction', hnone'⟩ := ih _ (hd ▸ Key.depth_base R hbase) hwell
          (k := b) (w := (getMemberOf R k name obj cache w).2.2) rfl
        rw [getMember_eq, hget, hbase, Option.elim_none, Option.elim_some, hfunction', hnone',
          hfunction, hnone, hworld hplain, Comes.base_iff hplain hbase]
        constructor <;> by_cases hk : k' = k <;> simp [hk]

theorem getMember_otherName (hname : name' ≠ name) :
    (getMember R k name obj cache w).2.1 k' name' = cache k' name' := by
  refine getMember_rule (Q := fun c c' => c' k' name' = c k' name') name obj ?_ ?_
  · exact fun k c c' hadds => hadds.other (fun h => hname h.2)
  · exact fun _ _ _ hfirst hsecond => hsecond.trans hfirst

variable (R) in
/-- The operation reads the member and comes to the class. -/
def Op.Reads (op : Op T P O σ V) (w : σ) (k : Key T P) (name : String) : Prop :=
  ∃ k₀ obj, op = .read k₀ name obj ∧ Comes R name obj k₀ w k

theorem reads_read {k₀ : Key T P} {name₀ : String} :
    (Op.read k₀ name₀ obj : Op T P O σ V).Reads R w k name ↔
      name = name₀ ∧ Comes R name obj k₀ w k := by
  constructor
  · rintro ⟨_, _, hop, hcomes⟩
    cases hop
    exact ⟨rfl, hcomes⟩
  · rintro ⟨rfl, hcomes⟩
    exact ⟨k₀, obj, rfl, hcomes⟩

theorem not_reads_write {k₀ : Key T P} {fieldName : Option String} {target : O} {val : V} :
    ¬ (Op.write k₀ fieldName target val : Op T P O σ V).Reads R w k name := by
  rintro ⟨_, _, hop, -⟩
  cases hop

theorem not_reads_other {change : σ → σ} :
    ¬ (Op.other change : Op T P O σ V).Reads R w k name := by
  rintro ⟨_, _, hop, -⟩
  cases hop

/-- A write keeps no function. -/
theorem trySetMember_function (k₀ : Key T P) (name₀ : String) (target : O) (val : V)
    (cache : MemberCache T P M) (w : σ) :
    HasFunction (trySetMember R k₀ (some name₀) target val cache w).2.1 k name ↔
      HasFunction cache k name := by
  rcases trySetMember_adds (R := R) k₀ name₀ target val cache w with
    hcache | ⟨e, hnone, ⟨m, _, rfl, -⟩, hcache⟩
  · rw [hcache]
  · rw [hcache]
    by_cases hsame : k = k₀ ∧ name = name₀
    · obtain ⟨rfl, rfl⟩ := hsame
      simp [HasFunction, setMemberCache_self, hnone]
    · rw [HasFunction, setMemberCache_other hsame, HasFunction]

theorem apply_method (op : Op T P O σ V) {s : MemberCache T P M × σ} (h : WellFormed R s.1)
    (hmethod : IsMethod R k name) :
    (HasFunction (op.apply R s).1 k name ↔
      HasFunction s.1 k name ∨ (s.1 k name = none ∧ op.Reads R s.2 k name)) ∧
    ((op.apply R s).1 k name = none ↔
      s.1 k name = none ∧ ¬ op.Reads R s.2 k name ∧ ¬ op.Writes R k name) := by
  cases op with
  | other change => simp [Op.apply, not_reads_other, not_writes_other]
  | read k₀ name₀ obj =>
    rw [reads_read, and_iff_left not_writes_read]
    by_cases hname : name = name₀
    · subst hname
      simpa [Op.apply] using getMember_method (k := k₀) obj (w := s.2) h hmethod
    · have hother : (Op.apply R (.read k₀ name₀ obj) s).1 k name = s.1 k name :=
        getMember_otherName hname
      simp [HasFunction, hother, hname]
  | write k₀ fieldName target val =>
    rw [writes_write]
    cases fieldName with
    | none => simp [Op.apply, trySetMember, not_reads_write]
    | some name₀ =>
      refine ⟨?_, ?_⟩
      · rw [or_iff_left (fun h => not_reads_write h.2)]
        exact trySetMember_function k₀ name₀ target val s.1 s.2
      · have hnone := not_congr (trySetMember_found k₀ name₀ target val s.1 s.2 hmethod.found)
        rw [not_not, not_or, not_not] at hnone
        rw [and_iff_right not_reads_write]
        exact hnone

/-- The first operation that comes to the method is a read. -/
def ReadFirst (R : Types T P M O σ V E) (w : σ) (history : List (Op T P O σ V)) (k : Key T P)
    (name : String) : Prop :=
  ∃ before op after, history = before ++ op :: after ∧ op.Reads R (run R w before).2 k name ∧
    ∀ op' ∈ before, ¬ op'.Writes R k name

theorem readFirst_append {history : List (Op T P O σ V)} {op : Op T P O σ V} :
    ReadFirst R w (history ++ [op]) k name ↔ ReadFirst R w history k name ∨
      (op.Reads R (run R w history).2 k name ∧ ∀ op' ∈ history, ¬ op'.Writes R k name) := by
  constructor
  · rintro ⟨before, op', after, hsplit, hreads, hbefore⟩
    rcases List.eq_nil_or_concat after with rfl | ⟨after', last, rfl⟩
    · obtain ⟨rfl, hop⟩ := List.append_inj' hsplit rfl
      cases hop
      exact Or.inr ⟨hreads, hbefore⟩
    · rw [List.concat_eq_append, ← List.cons_append, ← List.append_assoc] at hsplit
      obtain ⟨rfl, -⟩ := List.append_inj' hsplit rfl
      exact Or.inl ⟨before, op', after', rfl, hreads, hbefore⟩
  · rintro (⟨before, op', after, rfl, hreads, hbefore⟩ | ⟨hreads, hbefore⟩)
    · exact ⟨before, op', after ++ [op], by simp, hreads, hbefore⟩
    · exact ⟨history, op, [], rfl, hreads, hbefore⟩

theorem run_method (w : σ) (history : List (Op T P O σ V)) (hmethod : IsMethod R k name) :
    (HasFunction (run R w history).1 k name ↔ ReadFirst R w history k name) ∧
    ((run R w history).1 k name = none ↔
      (∀ op ∈ history, ¬ op.Writes R k name) ∧ ¬ ReadFirst R w history k name) := by
  induction history using List.reverseRecOn with
  | nil =>
    have hfirst : ¬ ReadFirst R w [] k name := by
      rintro ⟨before, op, after, hsplit, -⟩
      simp at hsplit
    simp [run, emptyCache, HasFunction, hfirst]
  | append_singleton history op ih =>
    obtain ⟨hfunction, hnone⟩ := ih
    obtain ⟨hfunction', hnone'⟩ := apply_method op (run_keeps (R := R) w history).1 hmethod
    rw [run_append, readFirst_append, hfunction', hnone', hfunction, hnone]
    constructor
    · by_cases hfirst : ReadFirst R w history k name <;> simp [hfirst, and_comm]
    · by_cases hfirst : ReadFirst R w history k name <;>
        simp only [List.forall_mem_append, List.forall_mem_singleton] <;> tauto

omit [DecidableEq T] [DecidableEq P] in
theorem setMember_ne_invalidCast {target : O} {val : V} {m : M} :
    (setMember R name target val w m).1 ≠ .invalidCast := by
  unfold setMember
  cases R.memberType m with
  | field =>
    dsimp only
    cases (R.setValue m target val w).1 <;> simp
  | property =>
    dsimp only
    cases (R.setValue m target val w).1 <;> simp
  | _ => simp

theorem trySetMember_invalidCast {target : O} {val : V} :
    (trySetMember R k (some name) target val cache w).1 = .invalidCast ↔
      isPropertyName R name = true ∧ HasFunction cache k name := by
  unfold trySetMember
  dsimp only
  cases hname : isPropertyName R name with
  | false => simp
  | true =>
    cases hcached : cache k name with
    | some e =>
      cases e with
      | function f => simp [HasFunction, hcached]
      | member m => simpa [HasFunction, hcached] using setMember_ne_invalidCast
    | none =>
      cases hfind : R.find k name with
      | none => simp [HasFunction, hcached]
      | some found => simpa [HasFunction, hcached] using setMember_ne_invalidCast

/-- After any history, assigning to a property name throws the exception of the cast exactly when it
is the name of a method that was read from this class before anyone tried to assign to it. -/
theorem write_invalidCast_iff (w : σ) (history : List (Op T P O σ V)) (k : Key T P) (name : String)
    (target : O) (val : V) :
    (trySetMember R k (some name) target val (run R w history).1 (run R w history).2).1 =
        .invalidCast ↔
      isPropertyName R name = true ∧ IsMethod R k name ∧ ReadFirst R w history k name := by
  rw [trySetMember_invalidCast]
  refine and_congr_right (fun _ => ⟨fun h => ?_, fun h => (run_method w history h.1).1.mpr h.2⟩)
  have hmethod : IsMethod R k name := by
    obtain ⟨f, hf⟩ := h
    rcases (run_keeps (R := R) w history).1 k name _ hf with ⟨-, hmethod⟩ | ⟨_, _, hne, -⟩
    · exact hmethod
    · cases hne
  exact ⟨hmethod, (run_method w history hmethod).1.mp h⟩

end Methods

/-- One class with a method for its instances. -/
def oneMethod : Types Unit Empty Unit Unit Unit Unit Unit where
  getMember := fun _ _ _ => [()]
  proxied := Empty.elim
  memberType := fun _ => .method
  baseType := fun _ => none
  depth := fun _ => 0
  depth_lt := by simp
  getField := fun _ _ w => (none, w)
  getProperty := fun _ _ w => (.argument, w)
  setValue := fun _ _ _ w => (none, w)
  isLetter := Char.isAlpha

theorem oneMethod_write_after_read :
    (trySetMember oneMethod (.type ()) (some "Kick") () ()
      (run oneMethod () [.read (.type ()) "Kick" ()]).1 ()).1 = .invalidCast := by
  have hwrite := write_invalidCast_iff (R := oneMethod) () [.read (.type ()) "Kick" ()]
    (.type ()) "Kick" () ()
  refine hwrite.mpr ⟨by decide, ⟨(), rfl, rfl⟩, [], _, [], rfl, ?_, ?_⟩
  · exact ⟨.type (), (), rfl, Comes.here _ _⟩
  · exact fun _ hop => absurd hop List.not_mem_nil

end LuaAddons.Members
