import Frontend.Proofs.Resolving.Environment

/-!
# What a scope remembers

What a scope answers can be told from its history, without looking at the scope.

* **`depth`**: how many frames there are around the innermost one.
* **`Lives`**: a declaration that succeeded, in a frame that has not been left since.  Whether it
  has is a matter of counting frames.
* **`BoundAt`**: what the frame at some depth has a name for.  The maps of the environment of a
  history are just this (`recalls_behind`).
* **`find?_eq_some_iff_lives`**: a name stands for what it was declared as in the innermost frame
  where this was done.
* **`Matched`**: actions that leave the frames that they enter, and no other.  They change nothing
  in the frames around (`Matched.outer`).
* **`scope_answers_to_history`**: all that this says about lookups and declarations.
-/

namespace Frontend.Scope

/-- The number of frames around the innermost one. -/
def depth (history : List Action) : Nat :=
  history.foldl (fun d action =>
    match action with
    | .push => d + 1
    | .pop => d - 1
    | .declare _ _ => d) 0

theorem depth_push (history : List Action) : depth (history ++ [.push]) = depth history + 1 := by
  simp [depth]

theorem depth_pop (history : List Action) : depth (history ++ [.pop]) = depth history - 1 := by
  simp [depth]

theorem depth_declare (history : List Action) (symbol : Symbol) (u : Entity) :
    depth (history ++ [.declare symbol u]) = depth history := by
  simp [depth]

/-- Behind `before`, the name is declared with success to stand for `u`.  The frame that this is
done in is still there at the end of the history: from then on there were never fewer frames. -/
def Lives (history before : List Action) (name : String) (u : Entity) : Prop :=
  ∃ symbol after, history = before ++ .declare symbol u :: after ∧ symbol.name = name ∧
    (∃ s, (behind before).declare symbol u = .ok s) ∧
    ∀ part, part <+: after → depth before ≤ depth (before ++ .declare symbol u :: part)

/-- The frame with `d` frames around it has the name for `u`: from a declaration that lives, or, if
it is the outermost one, from the beginning. -/
def BoundAt (history : List Action) (d : Nat) (name : String) (u : Entity) : Prop :=
  (∃ before, Lives history before name u ∧ depth before = d) ∨
    d = 0 ∧ u ∈ Builtin.entities 0 ∧ u.name = name

section

variable {history before before' : List Action} {action : Action} {name : String} {u v : Entity}
  {d : Nat}

theorem not_lives_nil : ¬ Lives [] before name u := by
  intro ⟨symbol, after, split, _⟩
  simp at split

/-- What lives behind one more action lived before it and is in a frame that is still there, or is
declared by the action. -/
theorem lives_concat : Lives (history ++ [action]) before name u ↔
    (Lives history before name u ∧ depth before ≤ depth (history ++ [action])) ∨
      (before = history ∧ ∃ symbol, action = .declare symbol u ∧ symbol.name = name ∧
        ∃ s, (behind history).declare symbol u = .ok s) := by
  constructor
  · intro ⟨symbol, after, split, named, succeeds, stays⟩
    -- Either the declaration is this last action, or it was there before and has not been left.
    rcases List.eq_nil_or_concat' after with none | ⟨after', last, rfl⟩
    · subst none
      obtain ⟨rfl, single⟩ := List.append_inj' split rfl
      exact .inr ⟨rfl, symbol, (List.cons.inj single).1, named, succeeds⟩
    · have now := stays (after' ++ [last]) List.prefix_rfl
      rw [← split] at now
      rw [← List.cons_append, ← List.append_assoc] at split
      obtain ⟨rfl, single⟩ := List.append_inj' split rfl
      refine .inl ⟨⟨symbol, after', rfl, named, succeeds, ?_⟩, now⟩
      intro part shorter
      -- A part of the shorter history is a part of the longer one.
      exact stays part (shorter.trans (List.prefix_append after' [last]))
  · intro lives
    rcases lives with ⟨⟨symbol, after, rfl, named, succeeds, stays⟩, now⟩ |
      ⟨rfl, symbol, rfl, named, succeeds⟩
    · refine ⟨symbol, after ++ [action], by simp, named, succeeds, ?_⟩
      intro part shorter
      -- A part of the longer history is the whole of it or one of the shorter.
      rcases List.prefix_concat_iff.mp shorter with rfl | shorter
      · simpa using now
      · exact stays part shorter
    · refine ⟨symbol, [], rfl, named, succeeds, ?_⟩
      -- Right behind the declaration there is no other part, and declaring leaves no scope.
      intro part shorter
      rw [List.prefix_nil.mp shorter, depth_declare]

theorem Lives.depth_le (h : Lives history before name u) : depth before ≤ depth history := by
  obtain ⟨symbol, after, rfl, -, -, stays⟩ := h
  exact stays after List.prefix_rfl

theorem BoundAt.le (h : BoundAt history d name u) : d ≤ depth history := by
  rcases h with ⟨before, lives, rfl⟩ | ⟨rfl, -⟩
  · exact lives.depth_le
  · exact Nat.zero_le _

/-- An action that declares nothing changes nothing in the frames that are there afterwards. -/
theorem boundAt_concat (idle : ∀ symbol u s, action = .declare symbol u →
      (behind history).declare symbol u ≠ .ok s) (there : d ≤ depth (history ++ [action])) :
    BoundAt (history ++ [action]) d name u ↔ BoundAt history d name u := by
  refine or_congr_left (exists_congr fun before => ?_)
  rw [lives_concat]
  constructor
  · intro ⟨lives, same⟩
    rcases lives with ⟨lives, -⟩ | ⟨-, symbol, rfl, -, s, succeeds⟩
    · exact ⟨lives, same⟩
    · exact absurd succeeds (idle symbol u s rfl)
  · intro ⟨lives, same⟩
    subst same
    exact ⟨.inl ⟨lives, there⟩, rfl⟩

/-- A declaration that succeeds adds its name to the innermost frame. -/
theorem boundAt_declare {symbol : Symbol} {s : Scope}
    (succeeds : (behind history).declare symbol v = .ok s) :
    BoundAt (history ++ [.declare symbol v]) d name u ↔
      BoundAt history d name u ∨ d = depth history ∧ symbol.name = name ∧ v = u := by
  unfold BoundAt
  constructor
  · intro bound
    rcases bound with ⟨before, lives, rfl⟩ | builtin
    -- What lives after the declaration lived before it, or is what it declares.
    · rcases lives_concat.mp lives with ⟨lives, -⟩ | ⟨rfl, symbol', same, named, -⟩
      · exact .inl (.inl ⟨before, lives, rfl⟩)
      · cases same
        exact .inr ⟨rfl, named, rfl⟩
    · exact .inl (.inr builtin)
  · intro bound
    rcases bound with (⟨before, lives, rfl⟩ | builtin) | ⟨rfl, named, rfl⟩
    · refine .inl ⟨before, lives_concat.mpr (.inl ⟨lives, ?_⟩), rfl⟩
      -- Declaring changes no depth, so what lived goes on living.
      rw [depth_declare]
      exact lives.depth_le
    · exact .inr builtin
    · exact .inl ⟨history, lives_concat.mpr (.inr ⟨rfl, symbol, rfl, named, s, succeeds⟩), rfl⟩

end

/-! ## What the maps are -/

/-- The maps of an environment are what a history has left in its frames. -/
structure Recalls (history : List Action) (e : Environment) : Prop where
  length : e.around.length = depth history
  lookup : ∀ k d map, e.maps[k]? = some map → k + d = depth history →
    ∀ name u, map.lookup name = some u ↔ BoundAt history d name u

theorem recalls_root : Recalls [] Environment.root := by
  refine ⟨rfl, ?_⟩
  intro k d map found place name u
  obtain ⟨rfl, rfl⟩ : k = 0 ∧ d = 0 := Nat.add_eq_zero_iff.mp place
  cases found
  rw [Environment.lookup_root]
  constructor
  · intro builtin
    exact .inr ⟨rfl, builtin⟩
  · intro bound
    rcases bound with ⟨before, lives, -⟩ | ⟨-, builtin⟩
    · exact absurd lives not_lives_nil
    · exact builtin

namespace Recalls

variable {history : List Action} {e : Environment}

theorem push (h : Recalls history e) : Recalls (history ++ [.push]) (e.perform .push) := by
  refine ⟨by rw [depth_push, ← h.length]; rfl, ?_⟩
  intro k d map found place name u
  have there : d ≤ depth (history ++ [.push]) := by omega
  rw [depth_push] at place
  rw [boundAt_concat (fun _ _ _ same => by cases same) there]
  cases k with
  | zero =>
    -- Nothing has been declared in the new frame.
    cases found
    have empty : (e.perform .push).current.lookup name = none := Finmap.lookup_empty name
    rw [empty]
    constructor
    · intro none
      cases none
    · intro bound
      have inside := bound.le
      omega
  | succ k => exact h.lookup k d map found (by omega) name u

theorem pop (h : Recalls history e) : Recalls (history ++ [.pop]) (e.perform .pop) := by
  have length := h.length
  have deep := depth_pop history
  unfold Environment.perform
  cases around : e.around with
  | nil =>
    rw [around] at length
    have same : depth (history ++ [.pop]) = depth history := by
      rw [deep, ← length]
      rfl
    refine ⟨by rw [same]; exact h.length, ?_⟩
    intro k d map found place name u
    rw [boundAt_concat (fun _ _ _ same => by cases same) (by omega)]
    exact h.lookup k d map found (by omega) name u
  | cons map rest =>
    rw [around, List.length_cons] at length
    refine ⟨by simp only [deep]; omega, ?_⟩
    intro k d map' found place name u
    rw [boundAt_concat (fun _ _ _ same => by cases same) (by omega)]
    -- Every frame that is left has moved up by one.
    have before : e.maps[k + 1]? = some map' := by
      rw [Environment.maps, around]
      exact found
    exact h.lookup (k + 1) d map' before (by omega) name u

theorem declare (h : Recalls history e) (refines : (behind history).Refines e) (symbol : Symbol)
    (v : Entity) :
    Recalls (history ++ [.declare symbol v]) (e.perform (.declare symbol v)) := by
  have deep := depth_declare history symbol v
  have fails := refines.declare_eq_error_iff symbol v
  rw [Environment.perform]
  -- A name of the innermost map is refused, and then the history gains nothing.
  by_cases taken : symbol.name ∈ e.current
  · have failed := (fails _).mpr ⟨rfl, taken⟩
    rw [if_pos taken]
    refine ⟨by rw [deep]; exact h.length, ?_⟩
    intro k d map found place name u
    rw [boundAt_concat ?idle (by omega)]
    case idle =>
      intro symbol' v' s same succeeds
      -- The only declaration there is to consider has just failed.
      cases same
      rw [failed] at succeeds
      cases succeeds
    exact h.lookup k d map found (by omega) name u
  · obtain ⟨s, succeeds⟩ : ∃ s, (behind history).declare symbol v = .ok s := by
      cases result : (behind history).declare symbol v with
      | ok s => exact ⟨s, rfl⟩
      | error d => exact absurd ((fails d).mp result).2 taken
    rw [if_neg taken]
    refine ⟨by rw [deep]; exact h.length, ?_⟩
    intro k d map found place name u
    rw [boundAt_declare succeeds]
    rw [deep] at place
    -- Only the innermost map has changed, and in it only the one name.
    cases k with
    | zero =>
      have here := h.lookup 0 d e.current rfl place name u
      cases found
      rw [← here]
      by_cases same : name = symbol.name
      · subst same
        rw [Finmap.lookup_insert, Finmap.lookup_eq_none.mpr taken]
        simp only [Option.some.injEq, reduceCtorEq, true_and, false_or, iff_and_self]
        omega
      · rw [Finmap.lookup_insert_of_ne e.current same]
        simp [Ne.symm same]
    | succ k =>
      -- The names of other depths are bound as before, since the depths differ.
      have here := h.lookup (k + 1) d map found place name u
      rw [here]
      simp only [iff_self_or, and_imp]
      omega

theorem perform (h : Recalls history e) (refines : (behind history).Refines e) (action : Action) :
    Recalls (history ++ [action]) (e.perform action) := by
  cases action with
  | push => exact h.push
  | pop => exact h.pop
  | declare symbol v => exact h.declare refines symbol v

end Recalls

theorem recalls_behind (history : List Action) : Recalls history (Environment.behind history) := by
  induction history using List.reverseRecOn with
  | nil => exact recalls_root
  | append_singleton history action ih =>
    rw [Environment.behind_concat]
    exact ih.perform (refines_behind history) action

/-! ## Lookups -/

section

variable {history before before' : List Action} {name : String} {u v : Entity} {d : Nat}

/-- What a frame has is in the map that is as deep. -/
theorem exists_map_of_boundAt (h : BoundAt history d name u) :
    ∃ k map, k + d = depth history ∧ (Environment.behind history).maps[k]? = some map ∧
      map.lookup name = some u := by
  have recalls := recalls_behind history
  have inside := h.le
  have place : depth history - d + d = depth history := by omega
  have enough : depth history - d < (Environment.behind history).maps.length := by
    rw [Environment.maps, List.length_cons, recalls.length]
    omega
  have found := List.getElem?_eq_getElem enough
  exact ⟨_, _, place, found, (recalls.lookup _ d _ found place name u).mpr h⟩

/-- A name stands for what the innermost frame that has it has it for. -/
theorem find?_eq_some_iff_boundAt : (behind history).find? name = some u ↔
    ∃ d, BoundAt history d name u ∧ ∀ d' v, BoundAt history d' name v → d' ≤ d := by
  have recalls := recalls_behind history
  rw [(refines_behind history).find?_eq, Environment.find?, List.findSome?_eq_some_iff]
  constructor
  · intro ⟨inner, map, outer, split, found, absent⟩
    have place : inner.length + outer.length = depth history := by
      have whole := congrArg List.length split
      rw [Environment.maps, List.length_cons, recalls.length, List.length_append,
        List.length_cons] at whole
      omega
    have here : (Environment.behind history).maps[inner.length]? = some map := by
      rw [split, List.getElem?_append_right (Nat.le_refl _), Nat.sub_self, List.getElem?_cons_zero]
    refine ⟨outer.length, (recalls.lookup _ _ map here place name u).mp found, ?_⟩
    intro d v bound
    by_contra deeper
    obtain ⟨k, map', place', there, has⟩ := exists_map_of_boundAt bound
    have further : k < inner.length := by omega
    rw [split, List.getElem?_append_left further] at there
    rw [absent map' (List.mem_of_getElem? there)] at has
    cases has
  · intro ⟨d, bound, innermost⟩
    obtain ⟨k, map, place, here, has⟩ := exists_map_of_boundAt bound
    refine ⟨(Environment.behind history).maps.take k, map,
      (Environment.behind history).maps.drop (k + 1), ?_, has, ?_⟩
    · obtain ⟨inside, rfl⟩ := List.getElem?_eq_some_iff.mp here
      rw [← List.drop_eq_getElem_cons inside, List.take_append_drop]
    · intro map' member
      rw [Option.eq_none_iff_forall_ne_some]
      intro v has'
      -- A map in front of this one would be that of a deeper frame.
      obtain ⟨k', there⟩ := List.mem_iff_getElem?.mp member
      have further : k' < k := by
        have short := (List.getElem?_eq_some_iff.mp there).1
        rw [List.length_take] at short
        omega
      rw [List.getElem?_take_of_lt further] at there
      have place' : k' + (depth history - k') = depth history := by omega
      have deeper := innermost _ v ((recalls.lookup k' _ map' there place' name v).mp has')
      omega

/-- A name stands for nothing if no frame has it. -/
theorem find?_eq_none_iff_boundAt :
    (behind history).find? name = none ↔ ∀ d v, ¬ BoundAt history d name v := by
  have recalls := recalls_behind history
  rw [(refines_behind history).find?_eq, Environment.find?, List.findSome?_eq_none_iff]
  constructor
  -- A binding would be found in the map of its depth, which has none.
  · intro absent d v bound
    obtain ⟨k, map, -, here, has⟩ := exists_map_of_boundAt bound
    rw [absent map (List.mem_of_getElem? here)] at has
    cases has
  · intro unbound map member
    rw [Option.eq_none_iff_forall_ne_some]
    intro v has
    obtain ⟨k, here⟩ := List.mem_iff_getElem?.mp member
    -- The map stands at a place that has a depth, and at that depth the name is bound.
    have inside : k ≤ depth history := by
      have short := (List.getElem?_eq_some_iff.mp here).1
      rw [Environment.maps, List.length_cons, recalls.length] at short
      omega
    have place : k + (depth history - k) = depth history := by omega
    exact unbound _ v ((recalls.lookup k _ map here place name v).mp has)

/-- A declaration fails exactly if the innermost frame has the name. -/
theorem declare_eq_error_iff_boundAt {symbol : Symbol} {c : Diagnostic} :
    (behind history).declare symbol u = .error c ↔
      c = ⟨.duplicate symbol.name, symbol.span.start⟩ ∧
        ∃ v, BoundAt history (depth history) symbol.name v := by
  have lookup := (recalls_behind history).lookup 0 (depth history) _ rfl (Nat.zero_add _)
  rw [(refines_behind history).declare_eq_error_iff, Finmap.mem_iff]
  simp only [lookup]

/-- No frame has two declarations of a name. -/
theorem Lives.unique (h : Lives history before name u) (h' : Lives history before' name v)
    (same : depth before = depth before') : before = before' := by
  induction history using List.reverseRecOn with
  | nil => exact absurd h not_lives_nil
  | append_singleton history action ih =>
    -- If one of them is made by the last action, it succeeds, and so the other one is not there.
    have apart {earlier : List Action} {w x : Entity} {symbol : Symbol} {s : Scope}
        (lives : Lives history earlier symbol.name w) (level : depth earlier = depth history)
        (succeeds : (behind history).declare symbol x = .ok s) : False := by
      have bound : BoundAt history (depth history) symbol.name w := .inl ⟨earlier, lives, level⟩
      rw [declare_eq_error_iff_boundAt.mpr ⟨rfl, w, bound⟩] at succeeds
      cases succeeds
    rcases lives_concat.mp h with ⟨lives, -⟩ | ⟨rfl, symbol, rfl, named, s, succeeds⟩
    · rcases lives_concat.mp h' with ⟨lives', -⟩ | ⟨rfl, symbol, rfl, named, s, succeeds⟩
      · exact ih lives lives'
      · subst named
        exact (apart lives same succeeds).elim
    · rcases lives_concat.mp h' with ⟨lives', -⟩ | ⟨rfl, -⟩
      · subst named
        exact (apart lives' same.symm succeeds).elim
      · rfl

/-- A built-in name cannot be declared in the outermost frame. -/
theorem Lives.not_builtin (h : Lives history before name u) (outermost : depth before = 0)
    (builtin : v ∈ Builtin.entities 0) : v.name ≠ name := by
  intro named
  obtain ⟨symbol, after, -, rfl, ⟨s, succeeds⟩, -⟩ := h
  have bound : BoundAt before (depth before) symbol.name v := .inr ⟨outermost, builtin, named⟩
  rw [declare_eq_error_iff_boundAt.mpr ⟨rfl, v, bound⟩] at succeeds
  cases succeeds

/-- A name stands for what it was declared as in the innermost frame where this was done.  If it
was done in none, it stands for what it was from the beginning. -/
theorem find?_eq_some_iff_lives : (behind history).find? name = some u ↔
    (∃ before, Lives history before name u ∧ ∀ before' v, Lives history before' name v →
      before' = before ∨ depth before' < depth before) ∨
    (∀ before v, ¬ Lives history before name v) ∧ u ∈ Builtin.entities 0 ∧ u.name = name := by
  rw [find?_eq_some_iff_boundAt]
  constructor
  -- The innermost binding is a declaration that lives, or one of the library at depth zero.
  · intro ⟨d, bound, innermost⟩
    have level {before v} (lives : Lives history before name v) : depth before ≤ d :=
      innermost (depth before) v (.inl ⟨before, lives, rfl⟩)
    rcases bound with ⟨before, lives, rfl⟩ | ⟨rfl, builtin, named⟩
    · refine .inl ⟨before, lives, ?_⟩
      intro before' v lives'
      rcases Nat.eq_or_lt_of_le (level lives') with same | less
      · exact .inl (lives'.unique lives same)
      · exact .inr less
    · refine .inr ⟨?_, builtin, named⟩
      intro before v lives
      -- What lives at depth zero hides nothing of the library, as those names cannot be declared.
      exact lives.not_builtin (Nat.le_zero.mp (level lives)) builtin named
  · intro stands
    rcases stands with ⟨before, lives, innermost⟩ | ⟨nowhere, builtin⟩
    · refine ⟨depth before, .inl ⟨before, lives, rfl⟩, ?_⟩
      intro d' v bound
      -- Any other binding is further out, or is one of the library.
      rcases bound with ⟨before', lives', rfl⟩ | ⟨rfl, -⟩
      · rcases innermost before' v lives' with rfl | less
        · exact Nat.le_refl _
        · exact Nat.le_of_lt less
      · exact Nat.zero_le _
    · refine ⟨0, .inr ⟨rfl, builtin⟩, ?_⟩
      intro d' v bound
      rcases bound with ⟨before, lives, -⟩ | ⟨rfl, -⟩
      · exact absurd lives (nowhere before v)
      · exact Nat.le_refl _

theorem find?_eq_none_iff_lives : (behind history).find? name = none ↔
    (∀ before v, ¬ Lives history before name v) ∧ ∀ v ∈ Builtin.entities 0, v.name ≠ name := by
  rw [find?_eq_none_iff_boundAt]
  constructor
  · intro unbound
    constructor
    · intro before v lives
      exact unbound (depth before) v (.inl ⟨before, lives, rfl⟩)
    · intro v builtin named
      exact unbound 0 v (.inr ⟨rfl, builtin, named⟩)
  · intro ⟨nowhere, other⟩ d v bound
    rcases bound with ⟨before, lives, -⟩ | ⟨-, builtin, named⟩
    · exact nowhere before v lives
    · exact other v builtin named

end

/-! ## Frames that are left again -/

/-- Actions that leave all the frames that they enter, and no other. -/
inductive Matched : List Action → Prop where
  | nil : Matched []
  | declare (symbol : Symbol) (u : Entity) {rest} (h : Matched rest) :
      Matched (.declare symbol u :: rest)
  | frame {inner rest} (h : Matched inner) (h' : Matched rest) :
      Matched (.push :: inner ++ .pop :: rest)

theorem outer_declare (s : Scope) (symbol : Symbol) (u : Entity) :
    (s.perform (.declare symbol u)).outer = s.outer := by
  cases declared : s.declare symbol u with
  | ok s' =>
    rw [perform_of_declare_ok declared]
    exact (declare_eq_ok declared).2.2.1
  | error d => rw [perform_of_declare_error declared]

theorem frames_pop {s : Scope} (inside : s.outer ≠ []) : (s.perform .pop).frames = s.outer := by
  cases frames : s.outer with
  | nil => exact absurd frames inside
  | cons frame rest => simp [perform, pop?, frames, Scope.frames]

/-- Whatever is done within a frame, the frames around it stay as they are. -/
theorem Matched.outer {actions : List Action} (h : Matched actions) (s : Scope) :
    (actions.foldl perform s).outer = s.outer := by
  induction h generalizing s with
  | nil => rfl
  | declare symbol u _ ih => rw [List.foldl_cons, ih, outer_declare]
  | @frame inner rest _ _ ih ih' =>
    rw [List.cons_append, List.foldl_cons, List.foldl_append, List.foldl_cons, ih']
    have around : (inner.foldl perform s.push).outer = s.frames := ih s.push
    have left : ((inner.foldl perform s.push).perform .pop).frames = s.frames := by
      rw [frames_pop (by rw [around]; exact List.cons_ne_nil _ _), around]
    exact (List.cons.inj left).2

/-- A frame that is entered and left leaves the scope with the frames that it had. -/
theorem Matched.frames_behind {inner : List Action} (h : Matched inner) (history : List Action) :
    (behind (history ++ (.push :: inner ++ [.pop]))).frames = (behind history).frames := by
  have around := h.outer (behind history).push
  have whole : behind (history ++ (.push :: inner ++ [.pop])) =
      (inner.foldl perform (behind history).push).perform .pop := by
    simp [behind, perform]
  rw [whole, frames_pop (by rw [around]; exact List.cons_ne_nil _ _), around]
  rfl

/-! ## Whole histories -/

/-- How a scope answers behind a history. -/
structure AnswersTo (history : List Action) : Prop where
  /-- It answers as the stack of finite maps does. -/
  maps : ∀ name, (behind history).find? name = (Environment.behind history).find? name
  /-- A name stands for the entity of the declaration that lives in the innermost frame that has
  one, and no frame has two.  If there is none, it stands for the built-in entity. -/
  found : ∀ name u, (behind history).find? name = some u ↔
    (∃ before, Lives history before name u ∧ ∀ before' v, Lives history before' name v →
      before' = before ∨ depth before' < depth before) ∨
    (∀ before v, ¬ Lives history before name v) ∧ u ∈ Builtin.entities 0 ∧ u.name = name
  /-- All other names stand for nothing. -/
  absent : ∀ name, (behind history).find? name = none ↔
    (∀ before v, ¬ Lives history before name v) ∧ ∀ v ∈ Builtin.entities 0, v.name ≠ name
  /-- A declaration fails exactly if the innermost frame has the name. -/
  fails : ∀ symbol u d, (behind history).declare symbol u = .error d ↔
    d = ⟨.duplicate symbol.name, symbol.span.start⟩ ∧
      ∃ v, BoundAt history (depth history) symbol.name v
  /-- Nothing else comes of a declaration that fails. -/
  idle : ∀ symbol u d, (behind history).declare symbol u = .error d →
    ∀ name, (behind (history ++ [.declare symbol u])).find? name = (behind history).find? name
  /-- Nothing comes of a frame that is left again. -/
  left : ∀ inner, Matched inner → ∀ name,
    (behind (history ++ (.push :: inner ++ [.pop]))).find? name = (behind history).find? name

/-- **A scope is a stack of finite maps.**  What it answers behind any history is what the history
itself says. -/
theorem scope_answers_to_history (history : List Action) : AnswersTo history := by
  constructor
  case maps => exact (refines_behind history).find?_eq
  case found =>
    intro name u
    exact find?_eq_some_iff_lives
  case absent =>
    intro name
    exact find?_eq_none_iff_lives
  case fails =>
    intro symbol u d
    exact declare_eq_error_iff_boundAt
  case idle =>
    intro symbol u d failed name
    rw [behind_concat, perform_of_declare_error failed]
  case left =>
    intro inner matched name
    rw [find?, matched.frames_behind history]
    rfl

/-- A declaration of a variable under the given serial number. -/
def declaring (name : String) (serial : Nat) : Action :=
  .declare ⟨name, default⟩ (.var ⟨serial, name, false⟩)

/-- A name in three frames, one of which has been left; in the middle one it was declared twice. -/
def shadows : List Action :=
  [declaring "x" 7, .push, declaring "x" 8, declaring "x" 9, .push, declaring "x" 10, .pop]

example : (behind shadows).find? "x" = some (.var ⟨8, "x", false⟩) := by decide

end Frontend.Scope
