import Mathlib.Logic.Function.Basic
import Mathlib.Logic.Relation
import TgPlatform.Ids.Snowflake

/-! # The nodes of the processes

A process registers a node in Redis for a time and prolongs it by a heartbeat.
Nothing ties the ids of the process to its registration: it goes on after the
registration has expired, and it prolongs and releases whatever stands at the
key of its node. Each process reads a clock of its own, which may jump, and Redis
has another one. Where two ids are equal, one of them was made without a
registration, or the registration of the first had ended when the second was
made.
-/

namespace TgPlatform.Snowflake

open SnowflakeConfig

abbrev Node : Type := ℕ × ℕ

def node (s : Snowflake) : Node := (s.datacenterId, s.workerId)

/-- All nodes, in the order in which they are tried. -/
def allNodes : List Node :=
  (List.range (maxDatacenterId + 1)).flatMap fun d => (List.range (maxWorkerId + 1)).map fun w => (d, w)

/-- `acquire_node_id`, with what `_register` answers for the nodes that are tried. -/
def acquireNodeId (occupied : List Node) (register : Node → Bool) : Option Node :=
  allNodes.find? fun n => n ∉ occupied && register n

theorem range_of_mem_allNodes {n : Node} (h : n ∈ allNodes) :
    n.1 ≤ maxDatacenterId ∧ n.2 ≤ maxWorkerId := by
  obtain ⟨d, hd, hn⟩ := List.mem_flatMap.mp h
  obtain ⟨w, hw, rfl⟩ := List.mem_map.mp hn
  exact ⟨Nat.lt_succ_iff.mp (List.mem_range.mp hd), Nat.lt_succ_iff.mp (List.mem_range.mp hw)⟩

theorem mem_of_acquireNodeId {occupied : List Node} {register : Node → Bool} {n : Node}
    (h : acquireNodeId occupied register = some n) : n ∈ allNodes ∧ register n = true := by
  refine ⟨List.mem_of_find?_eq_some h, ?_⟩
  have hfound := List.find?_some h
  simp only [Bool.and_eq_true] at hfound
  exact hfound.2

/-- A process that has just been initialized. -/
def ofNode (n : Node) (h : n ∈ allNodes) : Snowflake where
  datacenterId := n.1
  workerId := n.2
  datacenter_le := (range_of_mem_allNodes h).1
  worker_le := (range_of_mem_allNodes h).2

/-! ## Processes and Redis -/

/-- An id with who made it, the last moment that its process has read, the moment at Redis, and whether
the registration of the process stood there. -/
structure Issue where
  process : ℕ
  node : Node
  time : ℕ
  moment : ℕ
  held : Bool
  id : ℕ
  deriving DecidableEq, Repr

structure Ending where
  node : Node
  process : ℕ
  moment : ℕ
  deriving DecidableEq, Repr

structure Fleet where
  clock : ℕ
  nodes : Node → Option (ℕ × ℕ)
  processes : ℕ → Option Snowflake
  issues : List Issue
  endings : List Ending

namespace Fleet

variable (f : Fleet)

/-- The key of a node goes, if it is there. -/
def close (n : Node) (moment : ℕ) : Fleet :=
  match f.nodes n with
  | none => f
  | some (p, _) =>
    { f with
      nodes := Function.update f.nodes n none
      endings := f.endings ++ [⟨n, p, moment⟩] }

def lapse (n : Node) : Fleet :=
  match f.nodes n with
  | some (_, stop) => if stop ≤ f.clock then f.close n stop else f
  | none => f

/-- The registration of the process stands. -/
def holds (p : ℕ) (n : Node) : Bool := (f.nodes n).any fun x => x.1 = p && f.clock < x.2

/-- `EXPIRE`, for a key that is there. -/
def expire (ttl : ℕ) (n : Node) : Fleet :=
  { f with nodes := Function.update f.nodes n ((f.nodes n).map fun x => (x.1, f.clock + ttl)) }

/-- `SET NX EX`, for a key that is not there. -/
def register (ttl p : ℕ) (n : Node) (s : Snowflake) : Fleet :=
  { f with
    nodes := Function.update f.nodes n (some (p, f.clock + ttl))
    processes := Function.update f.processes p (some s) }

def start (clock : ℕ) : Fleet := ⟨clock, fun _ => none, fun _ => none, [], []⟩

end Fleet

/-- What can happen; an id is made at the last moment that its process has read on its own clock. -/
inductive Step (ttl : ℕ) : Fleet → Fleet → Prop
  | wait {f : Fleet} {later : ℕ} (h : f.clock ≤ later) : Step ttl f { f with clock := later }
  | init {f : Fleet} {p : ℕ} {occupied : List Node} {register : Node → Bool} {n : Node}
      (hnew : f.processes p = none) (hn : acquireNodeId occupied register = some n)
      (hfree : (f.lapse n).nodes n = none) :
      Step ttl f ((f.lapse n).register ttl p n (ofNode n (mem_of_acquireNodeId hn).1))
  | heartbeat {f : Fleet} {p : ℕ} {s : Snowflake} (hp : f.processes p = some s) :
      Step ttl f ((f.lapse s.node).expire ttl s.node)
  | release {f : Fleet} {p : ℕ} {s : Snowflake} (hp : f.processes p = some s) :
      Step ttl f ((f.lapse s.node).close s.node f.clock)
  | generate {f : Fleet} {p id time : ℕ} {s s' : Snowflake} {readings : List ℕ}
      (hp : f.processes p = some s) (hgen : s.generate (readings ++ [time]) = some (.id id, s', [])) :
      Step ttl f { f with
        processes := Function.update f.processes p (some s')
        issues := f.issues ++ [⟨p, s.node, time, f.clock, f.holds p s.node, id⟩] }

def Reachable (ttl clock : ℕ) (f : Fleet) : Prop := Relation.ReflTransGen (Step ttl) (Fleet.start clock) f

/-! ## The invariant -/

def Issue.Of (i : Issue) (s : Snowflake) : Prop :=
  i.node = s.node ∧ ∃ q, q ≤ sequenceMask ∧ i.id = (s.info i.time q).compose ∧
    ∃ last, s.lastTimestamp = some last ∧ (i.time < last ∨ i.time = last ∧ q ≤ s.sequence)

def Issue.EndedIn (i : Issue) (endings : List Ending) : Prop :=
  ∃ e ∈ endings, e.node = i.node ∧ e.process = i.process ∧ i.moment ≤ e.moment

/-- The key of the registration of an issue is there, or the registration has ended. -/
def Issue.Stands (i : Issue) (f : Fleet) : Prop :=
  (∃ stop, f.nodes i.node = some (i.process, stop) ∧ i.moment < stop) ∨ i.EndedIn f.endings

/-- Equal ids come from two processes of one node whose clocks have shown one moment, and one of them was
made without a registration, or the registration of the first has ended before the second was made. -/
def Apart (endings : List Ending) (i j : Issue) : Prop :=
  i.id = j.id → i.process ≠ j.process ∧ i.node = j.node ∧ i.time = j.time ∧
    (i.held = false ∨ j.held = false ∨
      ∃ e ∈ endings, e.node = i.node ∧ e.process = i.process ∧ i.moment ≤ e.moment ∧ e.moment ≤ j.moment)

structure Inv (f : Fleet) : Prop where
  known : ∀ i ∈ f.issues, ∃ s, f.processes i.process = some s ∧ i.Of s
  past : ∀ i ∈ f.issues, i.moment ≤ f.clock
  gone : ∀ e ∈ f.endings, e.moment ≤ f.clock
  standing : ∀ i ∈ f.issues, i.held = true → i.Stands f
  apart : f.issues.Pairwise (Apart f.endings)

variable {ttl clock : ℕ} {f f' : Fleet} {i j : Issue} {s s' : Snowflake}

theorem Issue.Of.parse (h : i.Of s) : (SnowflakeInfo.parse i.id).timestamp = i.time ∧
    ((SnowflakeInfo.parse i.id).datacenterId, (SnowflakeInfo.parse i.id).workerId) = i.node := by
  obtain ⟨hnode, q, hq, hid, -⟩ := h
  rw [hid, (fits i.time q hq).parse_compose, hnode]
  exact ⟨rfl, rfl⟩

theorem Issue.Of.after {t q : ℕ} (h : i.Of s) (hle : q ≤ sequenceMask) (hlater : s.Later t q) :
    i.Of (s.after t q hle) ∧ i.id < (s.info t q).compose := by
  obtain ⟨hnode, q', hq', hid, last, hlast, hbefore⟩ := h
  have hnext := hlater last hlast
  refine ⟨⟨hnode, q', hq', hid, t, rfl, ?_⟩, ?_⟩
  · change i.time < t ∨ i.time = t ∧ q' ≤ q
    omega
  · rw [hid]
    refine (fits i.time q' hq').compose_lt (fits t q hle) rfl rfl ?_
    change i.time < t ∨ i.time = t ∧ q' < q
    omega

theorem generate_last {readings : List ℕ} {now id : ℕ}
    (h : s.generate (readings ++ [now]) = some (.id id, s', [])) :
    ∃ q hle, s.Later now q ∧ id = (s.info now q).compose ∧ s' = s.after now q hle := by
  rcases generate_cases h with ⟨_, _, hback, -⟩ | ⟨t, q, hle, waited, hreadings, hlater, hissue⟩
  · cases hback
  · have hnow : now = t := by
      have hlast := congrArg List.getLast? hreadings
      simpa using hlast
    subst hnow
    cases hissue
    exact ⟨q, hle, hlater, rfl, rfl⟩

theorem holds_eq_true {p : ℕ} {n : Node} (h : f.holds p n = true) :
    ∃ stop, f.nodes n = some (p, stop) ∧ f.clock < stop := by
  obtain ⟨⟨owner, stop⟩, hnode, howner⟩ := (Option.any_eq_true ..).mp h
  obtain ⟨rfl, hstop⟩ : owner = p ∧ f.clock < stop := by simpa using howner
  exact ⟨stop, hnode, hstop⟩

theorem Apart.mono {endings endings' : List Ending} (h : Apart endings i j) (hsub : endings ⊆ endings') :
    Apart endings' i j := by
  intro hid
  obtain ⟨hprocess, hnode, htime, hwhy⟩ := h hid
  refine ⟨hprocess, hnode, htime, hwhy.imp_right fun hwhy => hwhy.imp_right ?_⟩
  rintro ⟨e, he, hof⟩
  exact ⟨e, hsub he, hof⟩

theorem Issue.EndedIn.mono {endings endings' : List Ending}
    (h : i.EndedIn endings) (hsub : endings ⊆ endings') :
    i.EndedIn endings' := by
  obtain ⟨e, he, hof⟩ := h
  exact ⟨e, hsub he, hof⟩

/-! ## What the steps keep -/

theorem Inv.close {n : Node} {moment : ℕ} (hI : Inv f) (hmoment : moment ≤ f.clock)
    (hafter : ∀ p stop, f.nodes n = some (p, stop) →
      ∀ i ∈ f.issues, i.moment < stop → i.moment ≤ moment) : Inv (f.close n moment) := by
  unfold Fleet.close
  split
  · exact hI
  · rename_i p stop hkey
    have hsub : f.endings ⊆ f.endings ++ [⟨n, p, moment⟩] := List.subset_append_left ..
    refine ⟨hI.known, hI.past, fun e he => ?_, fun i hi hheld => ?_, hI.apart.imp fun h => h.mono hsub⟩
    · rcases List.mem_append.mp he with he | he
      · exact hI.gone e he
      · rw [List.mem_singleton.mp he]
        exact hmoment
    · rcases hI.standing i hi hheld with ⟨stop', hnode, hlt⟩ | hended
      · by_cases hn : i.node = n
        · subst hn
          rw [hkey] at hnode
          obtain ⟨rfl, rfl⟩ := Prod.mk.inj (Option.some.inj hnode)
          exact .inr ⟨_, List.mem_append_right _ (List.mem_singleton_self _), rfl, rfl,
            hafter _ _ hkey i hi hlt⟩
        · exact .inl ⟨stop', (Function.update_of_ne hn ..).trans hnode, hlt⟩
      · exact .inr (hended.mono hsub)

theorem Inv.lapse {n : Node} (hI : Inv f) : Inv (f.lapse n) := by
  unfold Fleet.lapse
  split
  · rename_i p stop hkey
    split
    · rename_i hstop
      refine hI.close hstop fun p' stop' hkey' i _ hlt => ?_
      rw [hkey] at hkey'
      cases hkey'
      exact hlt.le
    · exact hI
  · exact hI

@[simp]
theorem clock_close {n : Node} {moment : ℕ} : (f.close n moment).clock = f.clock := by
  unfold Fleet.close
  split <;> rfl

@[simp]
theorem clock_lapse {n : Node} : (f.lapse n).clock = f.clock := by
  unfold Fleet.lapse
  split
  · split
    · exact clock_close
    · rfl
  · rfl

@[simp]
theorem processes_lapse {n : Node} : (f.lapse n).processes = f.processes := by
  unfold Fleet.lapse Fleet.close
  grind

theorem Inv.expire {n : Node} (httl : 0 < ttl) (hI : Inv f) : Inv (f.expire ttl n) := by
  refine ⟨hI.known, hI.past, hI.gone, fun i hi hheld => ?_, hI.apart⟩
  refine (hI.standing i hi hheld).imp_left fun ⟨stop, hnode, hlt⟩ => ?_
  by_cases hn : i.node = n
  · subst hn
    refine ⟨f.clock + ttl, (Function.update_self ..).trans ?_, ?_⟩
    · rw [hnode]
      rfl
    · exact Nat.lt_of_le_of_lt (hI.past i hi) (Nat.lt_add_of_pos_right httl)
  · exact ⟨stop, (Function.update_of_ne hn ..).trans hnode, hlt⟩

theorem Inv.register {p : ℕ} {n : Node} (hI : Inv f)
    (hnew : f.processes p = none) (hfree : f.nodes n = none) :
    Inv (f.register ttl p n s) := by
  refine ⟨fun i hi => ?_, hI.past, hI.gone, fun i hi hheld => ?_, hI.apart⟩
  · obtain ⟨s₀, hs₀, hof⟩ := hI.known i hi
    have hne : i.process ≠ p := by
      rintro rfl
      rw [hs₀] at hnew
      cases hnew
    exact ⟨s₀, (Function.update_of_ne hne ..).trans hs₀, hof⟩
  · refine (hI.standing i hi hheld).imp_left fun ⟨stop, hnode, hlt⟩ => ⟨stop, ?_, hlt⟩
    have hne : i.node ≠ n := by
      rintro rfl
      rw [hnode] at hfree
      cases hfree
    exact (Function.update_of_ne hne ..).trans hnode

/-- An id that is made is unlike all before it, or one of the two goes without a registration, or the
registration of the first has ended. -/
theorem Inv.apart_of_generate {p id q time : ℕ} (hI : Inv f) (hp : f.processes p = some s)
    (hle : q ≤ sequenceMask) (hlater : s.Later time q) (hid : id = (s.info time q).compose)
    (hi : i ∈ f.issues) : Apart f.endings i ⟨p, s.node, time, f.clock, f.holds p s.node, id⟩ := by
  intro he
  dsimp only at he
  obtain ⟨s₀, hs₀, hof⟩ := hI.known i hi
  obtain ⟨htime, hnode⟩ := hof.parse
  rw [he, hid, (fits time q hle).parse_compose] at htime hnode
  have hprocess : i.process ≠ p := by
    intro hprocess
    rw [hprocess, hp] at hs₀
    cases hs₀
    have hlt := (hof.after hle hlater).2
    rw [he, hid] at hlt
    exact Nat.lt_irrefl _ hlt
  refine ⟨hprocess, hnode.symm, htime.symm, ?_⟩
  by_contra hwhy
  obtain ⟨hheld, hrest⟩ := not_or.mp hwhy
  obtain ⟨hheld', hended⟩ := not_or.mp hrest
  rw [Bool.not_eq_false] at hheld hheld'
  rcases hI.standing i hi hheld with ⟨stop, hown, -⟩ | ⟨e, hmem, hof', hsame, hsince⟩
  · obtain ⟨stop', hown', -⟩ := holds_eq_true hheld'
    rw [← hnode] at hown
    rw [show f.nodes s.node = _ from hown] at hown'
    exact hprocess (congrArg Prod.fst (Option.some.inj hown'))
  · exact hended ⟨e, hmem, hof', hsame, hsince, hI.gone e hmem⟩

theorem Inv.generate {p id q time : ℕ} (hI : Inv f) (hp : f.processes p = some s) (hle : q ≤ sequenceMask)
    (hlater : s.Later time q) (hid : id = (s.info time q).compose) :
    Inv { f with
      processes := Function.update f.processes p (some (s.after time q hle))
      issues := f.issues ++ [⟨p, s.node, time, f.clock, f.holds p s.node, id⟩] } := by
  constructor
  · intro i hi
    rcases List.mem_append.mp hi with hi | hi
    · obtain ⟨s₀, hs₀, hof⟩ := hI.known i hi
      by_cases hprocess : i.process = p
      · rw [hprocess, hp] at hs₀
        cases hs₀
        exact ⟨_, hprocess ▸ Function.update_self .., (hof.after hle hlater).1⟩
      · exact ⟨s₀, (Function.update_of_ne hprocess ..).trans hs₀, hof⟩
    · rw [List.mem_singleton.mp hi]
      exact ⟨_, Function.update_self .., rfl, q, hle, hid, _, rfl, .inr ⟨rfl, Nat.le_refl _⟩⟩
  · intro i hi
    rcases List.mem_append.mp hi with hi | hi
    · exact hI.past i hi
    · rw [List.mem_singleton.mp hi]
  · exact hI.gone
  · intro i hi hheld
    rcases List.mem_append.mp hi with hi | hi
    · exact hI.standing i hi hheld
    · rw [List.mem_singleton.mp hi] at hheld ⊢
      exact .inl (holds_eq_true hheld)
  · refine List.pairwise_append.mpr ⟨hI.apart, List.pairwise_singleton .., fun i hi j hj => ?_⟩
    rw [List.mem_singleton.mp hj]
    exact hI.apart_of_generate hp hle hlater hid hi

theorem Inv.step (httl : 0 < ttl) (hI : Inv f) (h : Step ttl f f') : Inv f' := by
  cases h with
  | wait hle =>
    exact ⟨hI.known, fun i hi => (hI.past i hi).trans hle, fun e he => (hI.gone e he).trans hle,
      hI.standing, hI.apart⟩
  | init hnew hn hfree => exact hI.lapse.register (by rwa [processes_lapse]) hfree
  | heartbeat hp => exact hI.lapse.expire httl
  | release hp =>
    exact hI.lapse.close clock_lapse.ge fun _ _ _ i hi _ => clock_lapse ▸ hI.lapse.past i hi
  | generate hp hgen =>
    obtain ⟨q, hle, hlater, hid, rfl⟩ := generate_last hgen
    exact hI.generate hp hle hlater hid

/-- Whatever the processes, their clocks and Redis do, two ids that are equal were made by two processes of
one node whose clocks have shown one millisecond, and one of them was made without a registration, or the
registration of the first had ended when the second was made. -/
theorem equal_ids (httl : 0 < ttl) (h : Reachable ttl clock f) : f.issues.Pairwise (Apart f.endings) := by
  have hI : Inv f := by
    induction h with
    | refl => exact ⟨nofun, nofun, nofun, nofun, .nil⟩
    | tail _ hstep ih => exact ih.step httl hstep
  exact hI.apart

theorem acquireNodeId_first : acquireNodeId [] (fun _ => true) = some (0, 0) := rfl

theorem reachable_twice : ∃ f, Reachable 60 0 f ∧ f.endings = [⟨(0, 0), 0, 1⟩] ∧
    f.issues = [⟨0, (0, 0), 5, 0, true, 5 * 4194304⟩, ⟨1, (0, 0), 5, 4, true, 5 * 4194304⟩] := by
  have h : Reachable 60 0 (Fleet.start 0) := Relation.ReflTransGen.refl
  have h := h.tail (@Step.init _ _ 0 _ _ _ rfl acquireNodeId_first rfl)
  have h := h.tail (@Step.generate _ _ 0 _ 5 _ _ [] rfl rfl)
  have h := h.tail (@Step.wait _ _ 1 (show 0 ≤ 1 by decide))
  have h := h.tail (@Step.release _ _ 0 _ rfl)
  have h := h.tail (@Step.wait _ _ 4 (show 1 ≤ 4 by decide))
  have h := h.tail (@Step.init _ _ 1 _ _ _ rfl acquireNodeId_first rfl)
  have h := h.tail (@Step.generate _ _ 1 _ 5 _ _ [] rfl rfl)
  exact ⟨_, h, rfl, by decide +kernel⟩

theorem equal_ids_twice : Apart [⟨(0, 0), 0, 1⟩] ⟨0, (0, 0), 5, 0, true, 5 * 4194304⟩
    ⟨1, (0, 0), 5, 4, true, 5 * 4194304⟩ := by
  obtain ⟨f, hf, hendings, hissues⟩ := reachable_twice
  have hpair := equal_ids (by decide) hf
  rw [hissues, hendings] at hpair
  exact (List.pairwise_cons.mp hpair).1 _ List.mem_cons_self

end TgPlatform.Snowflake
