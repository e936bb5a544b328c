import Mathlib.Data.List.Induction
import StateMarkup.Proofs.NameMap
import StateMarkup.Registry

/-!
# What a registry remembers

A registry is asked to add, to remove and to get tasks, in any order, and some requests are refused.
What has been asked and answered so far is its history, and the history alone says which task stands
under a name (`Registry.Stands`): the one of the last addition that succeeded, unless the name has
been removed since.

A registry that has been empty once holds exactly the tasks that stand by its history, whatever was
asked of it (`Registry.faithful_after_any_requests`). That the registry gives back what was added is
a matter of one request after another: a single request changes what is found under its own name
only (`Registry.get?_ask`).
-/

namespace StateMarkup

universe u

namespace Registry

variable {τ : Type u}

/-! ## Requests -/

/-- What a registry may be asked. -/
inductive Request (τ : Type u) where
  | add (name : String) (task : τ)
  | remove (name : String)
  | get (name : String)

/-- What a registry answers. -/
inductive Answer (τ : Type u) where
  /-- the task has been added -/
  | added
  /-- the task that was asked for, or that has been removed -/
  | task (found : τ)
  | refused (error : RegistryError)

/-- The registry after a request, and its answer. A registry that refuses is the same registry. -/
def serve (r : Registry τ) : Request τ → Registry τ × Answer τ
  | .add name task =>
    match r.add name task with
    | .ok after => (after, .added)
    | .error error => (r, .refused error)
  | .remove name =>
    match r.remove name with
    | .ok (task, after) => (after, .task task)
    | .error error => (r, .refused error)
  | .get name =>
    match r.get name with
    | .ok task => (r, .task task)
    | .error error => (r, .refused error)

/-- A request and the answer to it. -/
structure Exchange (τ : Type u) where
  request : Request τ
  answer : Answer τ

/-- A registry, and all that it has been asked and has answered. -/
structure Dealings (τ : Type u) where
  registry : Registry τ
  history : List (Exchange τ)

/-- The dealings with one request more. -/
def Dealings.ask (dealings : Dealings τ) (request : Request τ) : Dealings τ :=
  let (registry, answer) := dealings.registry.serve request
  ⟨registry, dealings.history ++ [⟨request, answer⟩]⟩

/-- The dealings of a new registry that is asked one thing after the other. -/
def dealings (requests : List (Request τ)) : Dealings τ :=
  requests.foldl Dealings.ask ⟨empty, []⟩

/-- One request more is asked of the registry that the requests before have left. -/
theorem dealings_concat (requests : List (Request τ)) (request : Request τ) :
    dealings (requests ++ [request]) = (dealings requests).ask request := by
  rw [dealings, List.foldl_append]
  rfl

/-- The registry after several additions, of which some may be refused. -/
def addAll (r : Registry τ) (additions : List (String × τ)) : Registry τ :=
  additions.foldl (fun r (name, task) => (r.serve (.add name task)).1) r

/-! ## What stands under a name -/

/-- After this exchange it is settled anew what stands under the name: a task has been added under
it, or its removal has been asked for. -/
def Exchange.Settles (name : String) : Exchange τ → Prop
  | ⟨.add other _, .added⟩ => other = name
  | ⟨.remove other, _⟩ => other = name
  | _ => False

/-- **The task that stands under a name** by a history: it was added under the name, and after that
no other was added under it, nor was its removal asked for. -/
def Stands (history : List (Exchange τ)) (name : String) (task : τ) : Prop :=
  ∃ before after, history = before ++ ⟨.add name task, .added⟩ :: after ∧
    ∀ later ∈ after, ¬ later.Settles name

/-- No task stands under the name. -/
def Vacant (history : List (Exchange τ)) (name : String) : Prop :=
  ∀ task, ¬ Stands history name task

variable {history : List (Exchange τ)} {last : Exchange τ} {name : String} {task : τ}
  {r : Registry τ}

/-- The last exchange settles what stands under a name, or it leaves that as it was. So what stands
is known exchange by exchange, as the history grows. -/
theorem stands_concat_iff :
    Stands (history ++ [last]) name task ↔
      last = ⟨.add name task, .added⟩ ∨ ¬ last.Settles name ∧ Stands history name task := by
  constructor
  · rintro ⟨before, after, split, unsettled⟩
    rcases after.eq_nil_or_concat' with rfl | ⟨after, e, rfl⟩
    · exact .inl (List.singleton_inj.mp (List.append_inj' split rfl).2)
    · rw [← List.cons_append, ← List.append_assoc] at split
      obtain ⟨rfl, same⟩ := List.append_inj' split rfl
      obtain rfl := List.singleton_inj.mp same
      rw [List.forall_mem_append, List.forall_mem_singleton] at unsettled
      exact .inr ⟨unsettled.2, before, after, rfl, unsettled.1⟩
  · rintro (rfl | ⟨keeps, before, after, rfl, unsettled⟩)
    · exact ⟨history, [], rfl, List.forall_mem_nil _⟩
    · refine ⟨before, after ++ [last], by simp, ?_⟩
      rw [List.forall_mem_append, List.forall_mem_singleton]
      exact ⟨unsettled, keeps⟩

/-! ## What one request does -/

/-- A name is taken exactly if a task is found under it. -/
theorem contains_iff : r.contains name = true ↔ ∃ task, r.tasks.get? name = some task :=
  NameMap.contains_iff

/-- A name is free exactly if none is found. -/
theorem contains_eq_false_iff : r.contains name = false ↔ r.tasks.get? name = none := by
  rw [contains, NameMap.contains, Option.isSome_eq_false_iff, Option.isNone_iff_eq_none]

/-- Under a free name a task is added. The five lemmas from here on are the branches of the three
requests, each with what is found as its condition. -/
theorem add_of_free (free : r.tasks.get? name = none) (task : τ) :
    r.add name task = .ok ⟨r.tasks.insert name task⟩ := by
  rw [add, contains_eq_false_iff.mpr free]
  rfl

/-- Under a name that is taken none is added, also not the same task again. -/
theorem add_of_taken (taken : ∃ held, r.tasks.get? name = some held) (task : τ) :
    r.add name task = .error (.alreadyExists name) := by
  rw [add, contains_iff.mpr taken]
  rfl

/-- From a free name nothing is removed. -/
theorem remove_of_free (free : r.tasks.get? name = none) :
    r.remove name = .error (.notFound name) := by
  rw [remove, free]

/-- What is found is removed and handed back. -/
theorem remove_of_found (found : r.tasks.get? name = some task) :
    r.remove name = .ok (task, ⟨r.tasks.erase name⟩) := by
  rw [remove, found]

/-- What is found is handed out. -/
theorem get_of_found (found : r.tasks.get? name = some task) : r.get name = .ok task := by
  rw [get, found]

/-- **One request more.** If what is found in a registry is what stands by a history, then so it is
after any request. There is one case for each request and each answer to it. Only additions that
succeed and removals settle anything, and only under their own name; for all other names both sides
stay as they were. -/
theorem get?_ask {dealings : Dealings τ}
    (faithful : ∀ name task, dealings.registry.tasks.get? name = some task ↔
      Stands dealings.history name task) (request : Request τ) (name : String) (task : τ) :
    (dealings.ask request).registry.tasks.get? name = some task ↔
      Stands (dealings.ask request).history name task := by
  obtain ⟨r, history⟩ := dealings
  rw [Dealings.ask]
  dsimp only at faithful ⊢
  rw [stands_concat_iff, ← faithful]
  cases request with
  | add other added =>
    rcases found : r.tasks.get? other with _ | held
    · rw [serve, add_of_free found]
      by_cases own : other = name
      · subst own
        simp [Exchange.Settles, NameMap.get?_insert]
      · simp [Exchange.Settles, NameMap.get?_insert, own, Ne.symm own]
    · rw [serve, add_of_taken ⟨held, found⟩]
      simp [Exchange.Settles]
  | remove other =>
    rcases found : r.tasks.get? other with _ | held
    · rw [serve, remove_of_free found]
      by_cases own : other = name
      · subst own
        simp [Exchange.Settles, found]
      · simp [Exchange.Settles, own]
    · rw [serve, remove_of_found found]
      by_cases own : other = name
      · subst own
        simp [Exchange.Settles, NameMap.get?_erase]
      · simp [Exchange.Settles, NameMap.get?_erase, own, Ne.symm own]
  | get other =>
    -- whatever the answer is, a look-up leaves the registry as it is
    have same : ((r.serve (.get other)).1) = r := by
      rw [serve]
      cases r.get other <;> rfl
    rw [same]
    simp [Exchange.Settles]

/-- **What is found stands.** A new registry has nothing and a history without exchanges lets
nothing stand; from there on it is one request more at every step. -/
theorem get?_dealings (requests : List (Request τ)) (name : String) (task : τ) :
    (dealings requests).registry.tasks.get? name = some task ↔
      Stands (dealings requests).history name task := by
  induction requests using List.reverseRecOn generalizing name task with
  | nil =>
    refine iff_of_false nofun ?_
    rintro ⟨before, after, split, -⟩
    simp [dealings] at split
  | append_singleton before request ih =>
    rw [dealings_concat]
    exact get?_ask ih request name task

/-- What has been asked stands in the history, in order. -/
theorem history_dealings (requests : List (Request τ)) :
    (dealings requests).history.map (·.request) = requests := by
  induction requests using List.reverseRecOn with
  | nil => rfl
  | append_singleton before request ih =>
    rw [dealings_concat, Dealings.ask, List.map_append, ih]
    rfl

/-- A request that is refused leaves the registry as it was. -/
theorem serve_of_refused {request : Request τ} {error : RegistryError}
    (refused : (r.serve request).2 = .refused error) : (r.serve request).1 = r := by
  cases request with
  | add name task =>
    rw [serve] at refused ⊢
    cases added : r.add name task with
    | ok after => simp [added] at refused
    | error _ => rfl
  | remove name =>
    rw [serve] at refused ⊢
    cases removed : r.remove name with
    | ok _ => simp [removed] at refused
    | error _ => rfl
  | get name =>
    rw [serve]
    cases r.get name <;> rfl

/-! ## Additions in any order -/

/-- An addition shows under its name, unless a task stands there already, and nowhere else. Refused
or not, the name is taken afterwards. -/
theorem get?_addition (r : Registry τ) (name other : String) (task : τ) :
    (r.serve (.add name task)).1.tasks.get? other =
      if other = name then some ((r.tasks.get? name).getD task) else r.tasks.get? other := by
  rcases found : r.tasks.get? name with _ | held
  · rw [serve, add_of_free found]
    exact NameMap.get?_insert ..
  · rw [serve, add_of_taken ⟨held, found⟩]
    by_cases own : other = name
    · simp [own, found]
    · simp [own]

/-- Two additions under different names may change places: what is found afterwards under any name
is the same, and a registry is no more than that. -/
theorem addition_comm (r : Registry τ) {name other : String} (apart : name ≠ other)
    (task task' : τ) :
    (((r.serve (.add name task)).1).serve (.add other task')).1 =
      (((r.serve (.add other task')).1).serve (.add name task)).1 := by
  refine congrArg Registry.mk (NameMap.eq_of_get?_eq fun asked => ?_)
  simp only [get?_addition]
  by_cases first : asked = name
  · subst first
    simp [apart]
  · by_cases second : asked = other
    · subst second
      simp [first]
    · simp [first, second]

/-- **Additions under different names may come in any order.** Any order is reached by swaps of
neighbours, and neighbours have different names. -/
theorem addAll_perm (r : Registry τ) {additions additions' : List (String × τ)}
    (distinct : (additions.map Prod.fst).Nodup) (same : additions.Perm additions') :
    r.addAll additions = r.addAll additions' := by
  refine same.foldl_eq' (fun x hx y hy r => ?_) r
  by_cases equal : x = y
  · rw [equal]
  · exact addition_comm r (fun named => equal (List.inj_on_of_nodup_map distinct hx hy named)) ..

/-! ## After any requests -/

/-- **A registry that is faithful to its history**: what it does next follows from what stands. -/
structure Faithful (r : Registry τ) (history : List (Exchange τ)) : Prop where
  /-- what is got under a name is the task that stands there -/
  got : ∀ name task, r.get name = .ok task ↔ Stands history name task
  /-- getting fails exactly where none stands -/
  notGot : ∀ name error, r.get name = .error error ↔
    error = .notFound name ∧ Vacant history name
  /-- a task may be added exactly where none stands -/
  added : ∀ name task, (∃ after, r.add name task = .ok after) ↔ Vacant history name
  /-- an addition is refused exactly where one stands -/
  notAdded : ∀ name task error, r.add name task = .error error ↔
    error = .alreadyExists name ∧ ∃ held, Stands history name held
  /-- what is removed from a name is the task that stands there -/
  removed : ∀ name task, (∃ after, r.remove name = .ok (task, after)) ↔ Stands history name task
  /-- a removal is refused exactly where none stands -/
  notRemoved : ∀ name error, r.remove name = .error error ↔
    error = .notFound name ∧ Vacant history name
  /-- a request that is refused leaves the registry as it is -/
  kept : ∀ request error, (r.serve request).2 = .refused error → (r.serve request).1 = r
  /-- a name is contained exactly if a task is got under it -/
  contained : ∀ name, r.contains name = true ↔ ∃ task, r.get name = .ok task
  /-- the names strictly increase -/
  increasing : r.names.Pairwise (· < ·)
  /-- they are those under which a task stands -/
  named : ∀ name, name ∈ r.names ↔ ∃ task, Stands history name task
  /-- their number is the size -/
  counted : r.size = r.names.length
  /-- tasks of different names may be added in any order -/
  anyOrder : ∀ additions additions' : List (String × τ), (additions.map Prod.fst).Nodup →
    additions.Perm additions' → r.addAll additions = r.addAll additions'

/-- A registry in which there is found what stands is faithful. All requests answer by what is
found, so each part is one of the branches above. -/
theorem faithful_of_get? (found : ∀ name task,
    r.tasks.get? name = some task ↔ Stands history name task) : r.Faithful history := by
  have vacant (name : String) : r.tasks.get? name = none ↔ Vacant history name := by
    rw [Vacant, Option.eq_none_iff_forall_ne_some]
    exact forall_congr' fun task => not_congr (found name task)
  have occupied (name : String) :
      (∃ task, r.tasks.get? name = some task) ↔ ∃ task, Stands history name task :=
    exists_congr (found name)
  have got (name : String) (task : τ) : r.get name = .ok task ↔ r.tasks.get? name = some task := by
    rw [get]
    cases r.tasks.get? name <;> simp
  -- what a request is answered depends on what is found under its name alone
  refine ⟨?_, ?_, ?_, ?_, ?_, ?_, fun _ _ => serve_of_refused, ?_, r.tasks.pairwise_names, ?_, ?_,
    fun _ _ => r.addAll_perm⟩
  · exact fun name task => (got name task).trans (found name task)
  · intro name error
    rw [← vacant, get]
    cases r.tasks.get? name <;> simp [eq_comm]
  · intro name task
    rw [← vacant, add, ← contains_eq_false_iff]
    cases r.contains name <;> simp
  · intro name task error
    rw [← occupied, add, ← contains_iff]
    cases r.contains name <;> simp [eq_comm]
  · intro name task
    rw [← found, remove]
    cases r.tasks.get? name <;> simp
  · intro name error
    rw [← vacant, remove]
    cases r.tasks.get? name <;> simp [eq_comm]
  · intro name
    rw [contains_iff]
    exact exists_congr fun task => (got name task).symm
  · intro name
    rw [← occupied]
    exact NameMap.mem_names_iff.trans contains_iff
  · exact (List.length_map _).symm

/-- **Registries remember what they were told.** Whatever a new registry has been asked, in whatever
order, it is faithful to the history of these requests. -/
theorem faithful_after_any_requests (requests : List (Request τ)) :
    (dealings requests).history.map (·.request) = requests ∧
      (dealings requests).registry.Faithful (dealings requests).history :=
  ⟨history_dealings requests, faithful_of_get? (get?_dealings requests)⟩

/-- A name that is free again takes another task, and one that is taken does not. -/
example :
    (dealings [.add "a" 1, .add "a" 2, .remove "a", .add "a" 3, .add "a" 4]).registry.get "a" =
      .ok 3 := rfl

end Registry

end StateMarkup
