import Dialogue.Proofs.Naming
import Dialogue.Proofs.Returning

/-!
# What finished flows hand back

A return that pops several frames hands values down one frame at a time. In the end the frame that
becomes active has, under each name, the first value among the merging frames right above it, from
the front, and its own where they have none; its answers are those of the first of them
(`chain_hands_back`). A variable without a value hides nothing on the way, and a frame that does not
merge cuts off all that is above it.
-/

namespace Dialogue

/-- The value under a name, if there is one; null is none. -/
def Flow.valueOf? (f : Flow) (name : String) : Option Json :=
  ((f.varNamed? name).filter Variable.hasValue).bind (·.value)

/-- The merging frames at the end of a list, as many as there are, begin at a place. -/
structure MergingFrom (above : List Frame) (s : ℕ) : Prop where
  merges : ∀ f ∈ above.drop s, f.merges = true
  least : ∀ i, (∀ f ∈ above.drop i, f.merges = true) → s ≤ i

/-! ### Values under names -/

section

variable {name : String} {f : Flow} {v : Variable}

theorem Flow.NamesApart.varNamed?_eq (h : f.NamesApart) (hv : v ∈ f.vars) :
    f.varNamed? v.name = some v := find?_of_distinct h hv

theorem Variable.hasValue_congr {u : Variable} (same : u.value = v.value) :
    u.hasValue = v.hasValue := by
  rw [hasValue, hasValue, same]

/-- What a flow has under a name. -/
theorem Flow.valueOf?_eq (h : f.varNamed? name = some v) :
    f.valueOf? name = if v.hasValue then v.value else none := by
  rw [valueOf?, h, Option.filter]
  split <;> rfl

/-- A flow whose names are apart has the value of each of its variables under its name. -/
theorem Flow.NamesApart.valueOf?_of_hasValue (h : f.NamesApart) (hv : v ∈ f.vars)
    (valued : v.hasValue = true) : f.valueOf? v.name = v.value := by
  rw [valueOf?_eq (h.varNamed?_eq hv), if_pos valued]

/-- A variable takes what the finished flow has under its name, if anything. -/
theorem Variable.updated_eq (finished : Flow) (v : Variable) :
    v.updated finished = { v with value := (finished.valueOf? v.name).or v.value } := by
  cases found : finished.varNamed? v.name with
  | none => simp [updated, Flow.valueOf?, found]
  | some w =>
    rw [updated, Flow.valueOf?_eq found, found]
    by_cases valued : w.hasValue = true
    · obtain ⟨j, value, -⟩ := hasValue_iff.mp valued
      simp [valued, value]
    · simp [valued]

/-- A flow whose names are apart has a value under a name if one of its variables does. -/
theorem Flow.NamesApart.valueOf?_ne_none (h : f.NamesApart) (name : String) :
    f.valueOf? name ≠ none ↔ ∃ v ∈ f.vars, v.name = name ∧ v.hasValue = true := by
  constructor
  · intro found
    cases named : f.varNamed? name with
    | none => simp [valueOf?, named] at found
    | some v =>
      obtain ⟨hv, same⟩ := varNamed?_eq_some named
      rw [valueOf?_eq named] at found
      exact ⟨v, hv, same, by_contra fun unvalued => by simp [unvalued] at found⟩
  · rintro ⟨v, hv, rfl, valued⟩
    obtain ⟨j, value, -⟩ := Variable.hasValue_iff.mp valued
    rw [h.valueOf?_of_hasValue hv valued, value]
    exact Option.some_ne_none j

end

/-! ### One finished frame -/

section

variable {name : String} {parent finished : Frame}

/-- Where a finished frame has no value, the frame beneath keeps what it has. -/
theorem Frame.absorb_unvalued (parent : Frame) (apart : finished.flow.NamesApart)
    (none : finished.flow.valueOf? name = none) :
    (parent.absorb finished).flow.varNamed? name = parent.flow.varNamed? name := by
  have lacks (v : Variable) (hv : v ∈ finished.flow.vars) (named : v.name = name) :
      v.hasValue = false := by
    by_contra valued
    exact (apart.valueOf?_ne_none name).mpr ⟨v, hv, named, Bool.not_eq_false _ ▸ valued⟩ none
  rw [absorb_varNamed?]
  cases declared : parent.flow.varNamed? name with
  | none =>
    rw [Option.map_none, Option.none_or]
    refine List.find?_eq_none.mpr fun v handed named => ?_
    obtain ⟨hv, valued⟩ := List.mem_filter.mp handed
    simp [lacks v hv (by simpa using named)] at valued
  | some v =>
    obtain ⟨-, rfl⟩ := varNamed?_eq_some declared
    rw [Option.map_some, Variable.updated_eq, none, Option.none_or, Option.some_or]

/-- Where a finished frame has a value, the frame beneath takes it. -/
theorem Frame.absorb_valued (parent : Frame) {j : Json} (apart : finished.flow.NamesApart)
    (value : finished.flow.valueOf? name = some j) :
    ∃ v, (parent.absorb finished).flow.varNamed? name = some v ∧ v.hasValue = true ∧
      v.value = some j := by
  obtain ⟨w, hw, rfl, valued⟩ := (apart.valueOf?_ne_none name).mp (value ▸ Option.some_ne_none j)
  have same : w.value = some j := by
    rw [← value, apart.valueOf?_of_hasValue hw valued]
  rw [absorb_varNamed?]
  cases declared : parent.flow.varNamed? w.name with
  | none =>
    -- the only variable of that name that is handed over is the one with the value
    have handed : w ∈ parent.flow.undeclared finished.flow.vars :=
      List.mem_filter.mpr ⟨hw, by simp [valued, declared]⟩
    have distinct : ((parent.flow.undeclared finished.flow.vars).map (·.name)).Nodup :=
      apart.sublist (List.filter_sublist.map _)
    exact ⟨w, by rw [Option.map_none, Option.none_or, find?_of_distinct distinct handed], valued,
      same⟩
  | some v =>
    have named : v.name = w.name := (varNamed?_eq_some declared).2
    have taken : v.updated finished.flow = { v with value := w.value } := by
      rw [Variable.updated_eq, named, value, Option.some_or, same]
    refine ⟨{ v with value := w.value }, by rw [Option.map_some, Option.some_or, taken], ?_, same⟩
    rw [← valued]
    exact Variable.hasValue_congr rfl

/-- A value of the finished frame comes before that of the frame beneath. -/
theorem Frame.valueOf?_absorb (parent : Frame) (apart : finished.flow.NamesApart)
    (name : String) : (parent.absorb finished).flow.valueOf? name =
      (finished.flow.valueOf? name).or (parent.flow.valueOf? name) := by
  cases value : finished.flow.valueOf? name with
  | none =>
    rw [Option.none_or, Flow.valueOf?, absorb_unvalued parent apart value]
    rfl
  | some j =>
    obtain ⟨v, named, valued, same⟩ := absorb_valued parent apart value
    rw [Option.some_or, Flow.valueOf?_eq named, if_pos valued, same]

end

/-! ### Rows of finished frames -/

section

variable {name : String} {f : Frame} {above front row : List Frame} {s : ℕ}

theorem Frame.restored_namesApart : ∀ {f : Frame} {above : List Frame}, f.flow.NamesApart →
    (∀ c ∈ above, c.flow.NamesApart) → (f.restored above).flow.NamesApart
  | _, [], h, _ => h
  | f, child :: above, h, all => by
    obtain ⟨own, all⟩ := List.forall_mem_cons.mp all
    rw [restored_cons]
    exact h.resumed (restored_namesApart own all)

/-- A frame that does not merge cuts off all that is above it. -/
theorem Frame.restored_cut (fork : ∀ c, front.head? = some c → c.merges = false) :
    ∀ (f : Frame) (row : List Frame), f.restored (row ++ front) = f.restored row
  | f, [] => by
    cases front with
    | nil => rfl
    | cons c front =>
      rw [List.nil_append, restored_cons, restored_nil, resumed_of_fork]
      rw [restored_merges]
      exact fork c rfl
  | f, child :: row => by
    rw [List.cons_append, restored_cons, restored_cons, restored_cut fork child row]

/-- Of a row of merging frames, the values at the front come first. -/
theorem Frame.valueOf?_restored (name : String) : ∀ {f : Frame} {row : List Frame},
    (∀ c ∈ row, c.merges = true) → (∀ c ∈ row, c.flow.NamesApart) →
      (f.restored row).flow.valueOf? name =
        (row.reverse.findSome? (·.flow.valueOf? name)).or (f.flow.valueOf? name)
  | _, [], _, _ => rfl
  | f, child :: row, merges, apart => by
    obtain ⟨own, merges⟩ := List.forall_mem_cons.mp merges
    obtain ⟨ownApart, apart⟩ := List.forall_mem_cons.mp apart
    rw [restored_cons, resumed_of_merges f ((child.restored_merges row).trans own),
      valueOf?_absorb f (restored_namesApart ownApart apart), valueOf?_restored name merges apart,
      List.reverse_cons, List.findSome?_append, List.findSome?_singleton]

/-- What a row of merging frames leaves under a name. -/
theorem Frame.varNamed?_restored (merges : ∀ c ∈ row, c.merges = true)
    (apart : ∀ c ∈ row, c.flow.NamesApart) (name : String) :
    match row.reverse.findSome? (·.flow.valueOf? name) with
    | some j => ∃ v, (f.restored row).flow.varNamed? name = some v ∧ v.value = some j
    | none => (f.restored row).flow.varNamed? name = f.flow.varNamed? name := by
  cases row with
  | nil => rfl
  | cons child row =>
    obtain ⟨own, merges⟩ := List.forall_mem_cons.mp merges
    obtain ⟨ownApart, apart⟩ := List.forall_mem_cons.mp apart
    have handed := restored_namesApart ownApart apart
    have value := valueOf?_restored (f := child) name merges apart
    rw [restored_cons, resumed_of_merges f ((child.restored_merges row).trans own),
      List.reverse_cons, List.findSome?_append, List.findSome?_singleton, ← value]
    cases found : (child.restored row).flow.valueOf? name with
    | none => exact absorb_unvalued f handed found
    | some j =>
      obtain ⟨v, named, -, same⟩ := absorb_valued f handed found
      exact ⟨v, named, same⟩

theorem Flow.declares_iff {f : Flow} :
    (∃ v ∈ f.vars, v.name = name) ↔ f.varNamed? name ≠ none := by
  simp [varNamed?, List.find?_eq_none]

/-- Each variable behind a row has the first value in the row, or else the one that it had. -/
theorem Frame.values_restored (own : f.flow.NamesApart) (merges : ∀ c ∈ row, c.merges = true)
    (apart : ∀ c ∈ row, c.flow.NamesApart) :
    ∀ v ∈ (f.restored row).flow.vars, v.value =
      (row.reverse.findSome? (·.flow.valueOf? v.name)).or
        ((f.flow.varNamed? v.name).bind (·.value)) := by
  intro v hv
  have named := (restored_namesApart own apart).varNamed?_eq hv
  have left := varNamed?_restored (f := f) merges apart v.name
  cases found : row.reverse.findSome? (·.flow.valueOf? v.name) with
  | none =>
    rw [found, named] at left
    rw [Option.none_or, ← left, Option.bind_some]
  | some j =>
    rw [found, named] at left
    obtain ⟨u, same, value⟩ := left
    obtain rfl := Option.some.inj same
    rw [Option.some_or, value]

/-- A name is declared behind a row if it was, or if it has a value in the row. -/
theorem Frame.declares_restored (merges : ∀ c ∈ row, c.merges = true)
    (apart : ∀ c ∈ row, c.flow.NamesApart) (name : String) :
    (∃ v ∈ (f.restored row).flow.vars, v.name = name) ↔ (∃ v ∈ f.flow.vars, v.name = name) ∨
      ∃ c ∈ row.reverse, ∃ v ∈ c.flow.vars, v.name = name ∧ v.hasValue = true := by
  have left := varNamed?_restored (f := f) merges apart name
  have valued (c : Frame) (hc : c ∈ row.reverse) :=
    (apart c (List.mem_reverse.mp hc)).valueOf?_ne_none name
  rw [Flow.declares_iff, Flow.declares_iff]
  cases found : row.reverse.findSome? (·.flow.valueOf? name) with
  | none =>
    rw [found] at left
    have nowhere := List.findSome?_eq_none_iff.mp found
    rw [left]
    refine (or_iff_left ?_).symm
    rintro ⟨c, hc, gives⟩
    exact (valued c hc).mpr gives (nowhere c hc)
  | some j =>
    rw [found] at left
    obtain ⟨u, named, -⟩ := left
    obtain ⟨c, hc, value⟩ := List.exists_of_findSome?_eq_some found
    have gives := (valued c hc).mp (value ▸ Option.some_ne_none j)
    exact iff_of_true (named ▸ Option.some_ne_none u) (.inr ⟨c, hc, gives⟩)

/-- The answers are those of the frame at the front of the row, if there is a row. -/
theorem Frame.answers_restored : ∀ {f : Frame} {row : List Frame}, (∀ c ∈ row, c.merges = true) →
    ∃ first, (row.reverse ++ [f]).head? = some first ∧ (f.restored row).answers = first.answers
  | f, [], _ => ⟨f, rfl, rfl⟩
  | f, child :: row, merges => by
    obtain ⟨own, merges⟩ := List.forall_mem_cons.mp merges
    obtain ⟨first, front, answers⟩ := answers_restored (f := child) merges
    refine ⟨first, ?_, ?_⟩
    · rw [List.reverse_cons, List.head?_append, front, Option.some_or]
    · rw [restored_cons, resumed_of_merges f ((child.restored_merges row).trans own)]
      exact answers

end

/-! ### The place where the merging frames begin -/

namespace MergingFrom

variable {above : List Frame} {s : ℕ}

theorem le (h : MergingFrom above s) : s ≤ above.length := h.least above.length (by simp)

/-- A frame right above the row does not merge. -/
theorem fork (h : MergingFrom above s) :
    ∀ c, (above.take s).reverse.head? = some c → c.merges = false := by
  intro c last
  rw [List.head?_reverse] at last
  by_contra merges
  obtain ⟨before, front⟩ := List.getLast?_eq_some_iff.mp last
  have height : before.length + 1 = s := by
    have counted := congrArg List.length front
    rw [List.length_take_of_le h.le] at counted
    simpa using counted.symm
  have split : above = before ++ c :: above.drop s := by
    rw [List.append_cons, ← front, List.take_append_drop]
  have further := h.least before.length fun f hf => by
    rw [split, List.drop_left] at hf
    rcases List.mem_cons.mp hf with rfl | hf
    · simpa using merges
    · exact h.merges f hf
  omega

/-- A frame is restored by the row right above it. -/
theorem restored_eq (h : MergingFrom above s) (f : Frame) :
    f.restored above.reverse = f.restored (above.drop s).reverse := by
  have split : above.reverse = (above.drop s).reverse ++ (above.take s).reverse := by
    rw [← List.reverse_append, List.take_append_drop]
  rw [split, Frame.restored_cut h.fork]

/-- Whether frames merge is all that matters. -/
theorem congr (h : MergingFrom above s) {others : List Frame}
    (same : others.map Frame.shell = above.map Frame.shell) : MergingFrom others s := by
  have merging (i : ℕ) : (∀ f ∈ others.drop i, f.merges = true) ↔
      ∀ f ∈ above.drop i, f.merges = true := by
    have shells := congrArg (fun l => ∀ f ∈ l.drop i, f.merges = true) same
    simpa [← List.map_drop] using shells
  exact ⟨(merging s).mpr h.merges, fun i hi => h.least i ((merging i).mp hi)⟩

end MergingFrom

/-! ### A return that pops several frames -/

section

variable {top : Frame} {beneath : List Frame} {edgeId : Option String} {k : ℕ}

/-- A return that leaves all but `k` frames restores the one at that place. -/
theorem unwind_restored_at
    (removed : (unwind top beneath edgeId).frames.length + k = (top :: beneath).length) :
    ∃ f, (top :: beneath)[k]? = some f ∧ (unwind top beneath edgeId).frames =
      f.restored ((top :: beneath).take k).reverse :: (top :: beneath).drop (k + 1) := by
  obtain ⟨above, f, left, split, frames⟩ := unwind_restored beneath top edgeId
  rw [frames, split] at removed
  simp only [List.length_cons, List.length_append] at removed
  obtain rfl : above.length = k := by omega
  refine ⟨f, by simp [split], ?_⟩
  rw [frames, split, List.take_left]
  simp [List.drop_append]

/-- The first frame of a row is at the place where the row begins; without a row, this is the frame
beneath. -/
theorem head?_row {frames : List Frame} {f : Frame} {k s : ℕ} (here : frames[k]? = some f)
    (row : MergingFrom (frames.take k) s) :
    ((frames.take k).drop s ++ [f]).head? = frames[s]? := by
  have onward : (frames.take k).drop s ++ f :: frames.drop (k + 1) = frames.drop s := by
    obtain ⟨inside, rfl⟩ := List.getElem?_eq_some_iff.mp here
    rw [← List.drop_eq_getElem_cons inside, ← List.drop_append_of_le_length row.le,
      List.take_append_drop]
  rw [← List.head?_drop, ← onward, List.head?_append, List.head?_append]
  rfl

/-- Which group a return reaches, and how many frames it pops, is told by what no return changes. -/
theorem unwind_congr (edgeId : Option String) {top' : Frame} {beneath' : List Frame}
    (same : (top' :: beneath').map Frame.shell = (top :: beneath).map Frame.shell) :
    (unwind top' beneath' edgeId).group = (unwind top beneath edgeId).group ∧
      (unwind top' beneath' edgeId).frames.length = (unwind top beneath edgeId).frames.length := by
  obtain ⟨k, landed⟩ := unwind_landed beneath top edgeId
  obtain ⟨k', landed'⟩ := unwind_landed beneath' top' edgeId
  obtain rfl := (landed.lands.congr same).unique landed'.lands
  obtain ⟨f, g, here, frames, -, group⟩ := landed.left
  obtain ⟨f', g', here', frames', -, group'⟩ := landed'.left
  have alike : f'.shell = f.shell := by
    have places := congrArg (·[k]?) same
    simpa only [List.getElem?_map, here, here', Option.map_some, Option.some_inj] using places
  have destination : f'.flow.destination = f.flow.destination :=
    congrArg (·.flow.destination) alike
  have height : (top' :: beneath').length = (top :: beneath).length := by
    simpa using congrArg List.length same
  constructor
  · rw [group, group', leads?_congr same, destination]
  · rw [frames, frames', List.length_cons, List.length_cons, List.length_drop, List.length_drop,
      height]

/-- A return leaves the same if the frames above the row are others, as long as they differ in no
more than variables and answers. -/
theorem unwind_of_others {s : ℕ} {others beneath' : List Frame} {top' : Frame}
    (removed : (unwind top beneath edgeId).frames.length + k = (top :: beneath).length)
    (row : MergingFrom ((top :: beneath).take k) s)
    (same : others.map Frame.shell = ((top :: beneath).take s).map Frame.shell)
    (split : others ++ (top :: beneath).drop s = top' :: beneath') :
    (unwind top' beneath' edgeId).group = (unwind top beneath edgeId).group ∧
      (unwind top' beneath' edgeId).frames = (unwind top beneath edgeId).frames := by
  have shells : (top' :: beneath').map Frame.shell = (top :: beneath).map Frame.shell := by
    rw [← split, List.map_append, same, ← List.map_append, List.take_append_drop]
  have height : (top' :: beneath').length = (top :: beneath).length := by
    simpa using congrArg List.length shells
  obtain ⟨group, count⟩ := unwind_congr edgeId shells
  obtain ⟨f, here, frames⟩ := unwind_restored_at removed
  rw [← count, ← height] at removed
  obtain ⟨f', here', frames'⟩ := unwind_restored_at removed
  have row' : MergingFrom ((top' :: beneath').take k) s := row.congr (by
    rw [List.map_take, shells, List.map_take])
  have before : s ≤ (top :: beneath).length ∧ s ≤ k := by
    have inside := row.le
    rw [List.length_take] at inside
    omega
  have under : (top' :: beneath').drop s = (top :: beneath).drop s := by
    have length : others.length = s := by
      have counted := congrArg List.length same
      simp only [List.length_map] at counted
      rw [counted, List.length_take_of_le before.1]
    rw [← split, ← length, List.drop_left]
  have place (l : List Frame) : l[k]? = (l.drop s)[k - s]? := by
    rw [List.getElem?_drop, Nat.add_sub_cancel' before.2]
  have rest (l : List Frame) : l.drop (k + 1) = (l.drop s).drop (k + 1 - s) := by
    rw [List.drop_drop, Nat.add_sub_cancel' (Nat.le_succ_of_le before.2)]
  rw [place, under, ← place, here] at here'
  obtain rfl := Option.some.inj here'
  refine ⟨group, ?_⟩
  rw [frames, frames', row.restored_eq, row'.restored_eq, List.drop_take, List.drop_take, under,
    rest, under, ← rest]

end

/-- What a chain of finished flows hands back, if no flow of the stack has a name twice. When a
return pops `k` frames, let the merging frames right above the one that becomes active begin at the
place `s`. Then each variable of that one has the value that the first of them has under its name,
or else the value that it had; it declares what it declared, and what one of them has a value for;
and it has the answers of the frame at `s`. What the frames before `s` have as variables and answers
makes no difference. -/
theorem chain_hands_back {σ : Type} {host : Host σ} {top : Frame} {beneath : List Frame}
    {extra : Entries} {edgeId : Option String} {n : Next} {w w' : σ}
    (apart : ∀ f ∈ top :: beneath, f.flow.NamesApart)
    (ran : exec (host.next ⟨top :: beneath, extra⟩ edgeId) w = (.ok n, w')) {k s : ℕ}
    (removed : n.session.depth + k = (top :: beneath).length)
    (row : MergingFrom ((top :: beneath).take k) s) :
    ∃ first f g, (top :: beneath)[s]? = some first ∧ (top :: beneath)[k]? = some f ∧
      n.session = ⟨g :: (top :: beneath).drop (k + 1), extra⟩ ∧
      (∀ v ∈ g.flow.vars, v.value =
        ((((top :: beneath).take k).drop s).findSome? (·.flow.valueOf? v.name)).or
          ((f.flow.varNamed? v.name).bind (·.value))) ∧
      (∀ name, (∃ v ∈ g.flow.vars, v.name = name) ↔ (∃ v ∈ f.flow.vars, v.name = name) ∨
        ∃ c ∈ ((top :: beneath).take k).drop s, ∃ v ∈ c.flow.vars,
          v.name = name ∧ v.hasValue = true) ∧
      g.answers = first.answers ∧
      ∀ others : List Frame,
        others.map Frame.shell = ((top :: beneath).take s).map Frame.shell →
        ∀ n₁ v v', exec (host.next ⟨others ++ (top :: beneath).drop s, extra⟩ edgeId) v =
          (.ok n₁, v') → n₁ = n := by
  obtain ⟨-, rfl⟩ := next_ok ran
  obtain ⟨f, here, frames⟩ := unwind_restored_at removed
  rw [row.restored_eq f] at frames
  have inside (c : Frame) (hc : c ∈ ((top :: beneath).take k).drop s) : c ∈ top :: beneath :=
    List.mem_of_mem_take (List.mem_of_mem_drop hc)
  have merges : ∀ c ∈ (((top :: beneath).take k).drop s).reverse, c.merges = true :=
    fun c hc => row.merges c (List.mem_reverse.mp hc)
  have names : ∀ c ∈ (((top :: beneath).take k).drop s).reverse, c.flow.NamesApart :=
    fun c hc => apart c (inside c (List.mem_reverse.mp hc))
  have values := Frame.values_restored (apart f (List.mem_of_getElem? here)) merges names
  have declares := Frame.declares_restored (f := f) merges names
  obtain ⟨first, front, answers⟩ := Frame.answers_restored (f := f) merges
  rw [List.reverse_reverse] at values declares front
  rw [head?_row here row] at front
  refine ⟨first, f, _, front, here, by rw [frames], values, declares, answers, ?_⟩
  intro others same n₁ v v' ran'
  cases split : others ++ (top :: beneath).drop s with
  | nil =>
    rw [split] at ran'
    cases ran'
  | cons top' beneath' =>
    rw [split] at ran'
    obtain ⟨-, rfl⟩ := next_ok ran'
    obtain ⟨group, left⟩ := unwind_of_others removed row same split
    rw [group, left]

namespace Sample

/-- A frame of a flow with variables. -/
def holding (vars : List Variable) (answers : List Answer) (merges : Bool) : Frame :=
  ⟨{ flow with vars := vars }, some "r", none, answers, merges⟩

/-- A frame that merges into a fork, and two that merge, the first of which has no name, into the
deepest one. -/
def errands : List Frame :=
  [holding [⟨"v1", "name", some (.string "Eve")⟩] [⟨"n", "Eve", none⟩] true,
    holding [⟨"v2", "name", some (.string "Kim")⟩] [] false,
    holding [⟨"v3", "name", some .null⟩, ⟨"v4", "city", some (.string "Paris")⟩]
      [⟨"c", "Paris", none⟩] true,
    holding [⟨"v5", "age", none⟩, ⟨"v6", "name", some (.string "Bob")⟩] [] true,
    holding [⟨"v7", "name", some (.string "Ada")⟩, ⟨"v8", "age", some (.int 36)⟩] [] false]

theorem errands_apart : ∀ f ∈ errands, f.flow.NamesApart := by
  unfold Flow.NamesApart
  decide

theorem errands_merging : MergingFrom (errands.take 4) 2 where
  merges := by decide
  least i all := by
    by_contra before
    have fork : errands[1] ∈ (errands.take 4).drop i := by
      obtain rfl | rfl : i = 0 ∨ i = 1 := by omega
      · exact List.mem_cons_of_mem _ List.mem_cons_self
      · exact List.mem_cons_self
    cases all _ fork

end Sample

/-- The deepest frame takes the city and the nearest name with a value, keeps its age, and has the
answers of the frame right beneath the fork. -/
theorem chain_hands_back_sample :
    ∃ g m', exec (Memory.host.next ⟨Sample.errands, []⟩ none) (.empty ⟨fun _ => "", 0⟩) =
        (.ok ⟨none, ⟨[g], []⟩⟩, m') ∧
      (∀ v ∈ g.flow.vars, v.name = "name" → v.value = some (.string "Bob")) ∧
      (∀ v ∈ g.flow.vars, v.name = "age" → v.value = some (.int 36)) ∧
      (∃ v ∈ g.flow.vars, v.name = "city") ∧ g.answers = [⟨"c", "Paris", none⟩] := by
  obtain ⟨n, m', ran, reached⟩ : ∃ n m', exec (Memory.host.next ⟨Sample.errands, []⟩ none)
      (.empty ⟨fun _ => "", 0⟩) = (.ok n, m') ∧ n.group = none ∧ n.session.depth = 1 :=
    ⟨_, _, rfl, rfl, rfl⟩
  obtain ⟨group, depth⟩ := reached
  obtain ⟨first, f, g, front, here, session, values, declares, answers, -⟩ :=
    chain_hands_back Sample.errands_apart ran (k := 4) (by rw [depth]; rfl)
      Sample.errands_merging
  cases front
  cases here
  obtain ⟨_, _⟩ := n
  obtain rfl := group
  obtain rfl := session
  refine ⟨g, m', ran, ?_, ?_, (declares "city").mpr (.inr ?_), answers⟩
  · intro v hv named
    rw [values v hv, named]
    rfl
  · intro v hv named
    rw [values v hv, named]
    rfl
  · exact ⟨_, List.mem_cons_self, _, List.mem_cons_of_mem _ List.mem_cons_self, rfl, rfl⟩

end Dialogue
