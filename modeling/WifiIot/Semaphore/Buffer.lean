import WifiIot.Machine.Census
import WifiIot.Machine.Run

/-!
# Producers and consumers

A producer takes a token of `empty_id`, counts a product and gives a token to
`filled_id`; a consumer goes the other way.  Between the two semaphores a
thread holds a token that neither of them counts, so the invariant counts the
threads as well.

Source: `semaphore_demo/semp.c`.
-/

namespace WifiIot.Semaphore

universe u

/-! ## Semaphores -/

inductive osStatus where
  | osOK
  | osErrorResource
  deriving DecidableEq

export osStatus (osOK osErrorResource)

structure osSemaphore where
  max_count : Nat
  tokens : Nat
  bounded : tokens ≤ max_count
  deriving DecidableEq

/-- More tokens than the maximum are refused. -/
def osSemaphoreNew (max_count initial_count : Nat) : Option osSemaphore :=
  if bounded : initial_count ≤ max_count then some ⟨max_count, initial_count, bounded⟩ else none

/-- Wait for a token forever: without one the thread does not move. -/
def osSemaphoreAcquire (semaphore : osSemaphore) : Option osSemaphore :=
  match semaphore with
  | ⟨_, 0, _⟩ => none
  | ⟨max_count, tokens + 1, bounded⟩ => some ⟨max_count, tokens, Nat.le_of_succ_le bounded⟩

def osSemaphoreRelease (semaphore : osSemaphore) : osSemaphore × osStatus :=
  if room : semaphore.tokens < semaphore.max_count then
    (⟨semaphore.max_count, semaphore.tokens + 1, room⟩, osOK)
  else (semaphore, osErrorResource)

theorem osSemaphoreAcquire_eq_some_iff {semaphore next : osSemaphore} :
    osSemaphoreAcquire semaphore = some next ↔
      semaphore.tokens = next.tokens + 1 ∧ semaphore.max_count = next.max_count := by
  obtain ⟨max_count, tokens, bounded⟩ := semaphore
  obtain ⟨nextMax, nextTokens, nextBounded⟩ := next
  cases tokens with
  | zero => simp [osSemaphoreAcquire]
  | succ tokens => simp [osSemaphoreAcquire, and_comm]

theorem osSemaphoreRelease_of_room {semaphore : osSemaphore}
    (room : semaphore.tokens < semaphore.max_count) :
    osSemaphoreRelease semaphore =
      (⟨semaphore.max_count, semaphore.tokens + 1, room⟩, osOK) :=
  dif_pos room

/-! ## The threads -/

def BUFFER_SIZE : Nat := 5

inductive Pc where
  | osSemaphoreAcquire
  /-- `product_number++` or `product_number--`. -/
  | product_number
  | osSemaphoreRelease
  deriving DecidableEq

inductive Id where
  | empty_id
  | filled_id
  deriving DecidableEq

structure Release where
  id : Id
  status : osStatus
  deriving DecidableEq

structure Semp (Producer Consumer : Type u) where
  empty_id : osSemaphore
  filled_id : osSemaphore
  product_number : Int
  producer : Producer → Pc
  consumer : Consumer → Pc

variable {Producer Consumer : Type u}

section Steps

variable [DecidableEq Producer] [DecidableEq Consumer]

/-- The steps of `producer_thread`. -/
def producer_thread (semp : Semp Producer Consumer) (thread : Producer) :
    Option (Semp Producer Consumer × List Release) :=
  let goto (pc : Pc) := Function.update semp.producer thread pc
  match semp.producer thread with
  | .osSemaphoreAcquire =>
      (osSemaphoreAcquire semp.empty_id).map fun empty_id =>
        ({ semp with empty_id := empty_id, producer := goto .product_number }, [])
  | .product_number =>
      some
        ({ semp with
          product_number := semp.product_number + 1
          producer := goto .osSemaphoreRelease }, [])
  | .osSemaphoreRelease =>
      let (filled_id, status) := osSemaphoreRelease semp.filled_id
      some
        ({ semp with filled_id := filled_id, producer := goto .osSemaphoreAcquire },
          [⟨.filled_id, status⟩])

/-- The steps of `consumer_thread`. -/
def consumer_thread (semp : Semp Producer Consumer) (thread : Consumer) :
    Option (Semp Producer Consumer × List Release) :=
  let goto (pc : Pc) := Function.update semp.consumer thread pc
  match semp.consumer thread with
  | .osSemaphoreAcquire =>
      (osSemaphoreAcquire semp.filled_id).map fun filled_id =>
        ({ semp with filled_id := filled_id, consumer := goto .product_number }, [])
  | .product_number =>
      some
        ({ semp with
          product_number := semp.product_number - 1
          consumer := goto .osSemaphoreRelease }, [])
  | .osSemaphoreRelease =>
      let (empty_id, status) := osSemaphoreRelease semp.empty_id
      some
        ({ semp with empty_id := empty_id, consumer := goto .osSemaphoreAcquire },
          [⟨.empty_id, status⟩])

def machine (Producer Consumer : Type u) [DecidableEq Producer] [DecidableEq Consumer] :
    Machine (Semp Producer Consumer) (Producer ⊕ Consumer) Release :=
  Machine.interleave ⟨producer_thread⟩ ⟨consumer_thread⟩

end Steps

/-- The state that `rtosv2_semp_main` leaves to the threads. -/
def rtosv2_semp_main (Producer Consumer : Type u) : Option (Semp Producer Consumer) :=
  (osSemaphoreNew BUFFER_SIZE BUFFER_SIZE).bind fun empty_id =>
    (osSemaphoreNew BUFFER_SIZE 0).map fun filled_id =>
      { empty_id := empty_id
        filled_id := filled_id
        product_number := 0
        producer := fun _ => .osSemaphoreAcquire
        consumer := fun _ => .osSemaphoreAcquire }

/-! ## The invariant -/

section Invariant

variable [Fintype Producer] [Fintype Consumer]

def inside {Thread : Type u} [Fintype Thread] (pc : Thread → Pc) : Nat :=
  census pc .product_number + census pc .osSemaphoreRelease

/-- Every token is in a semaphore or with a thread, and every product counted
is in `filled_id`, with a producer that has yet to release it or with a
consumer that has yet to count it. -/
structure Balanced (semp : Semp Producer Consumer) : Prop where
  empty_max : semp.empty_id.max_count = BUFFER_SIZE
  filled_max : semp.filled_id.max_count = BUFFER_SIZE
  tokens : semp.empty_id.tokens + semp.filled_id.tokens + inside semp.producer +
    inside semp.consumer = BUFFER_SIZE
  products : semp.product_number = semp.filled_id.tokens +
    census semp.producer .osSemaphoreRelease + census semp.consumer .product_number

theorem balanced_start {semp : Semp Producer Consumer}
    (created : rtosv2_semp_main Producer Consumer = some semp) : Balanced semp := by
  obtain rfl := Option.some.inj created
  constructor <;> simp [inside, census_const]

namespace Balanced

variable {semp : Semp Producer Consumer}

theorem product_number_bounds (balanced : Balanced semp) :
    0 ≤ semp.product_number ∧ semp.product_number ≤ BUFFER_SIZE := by
  have tokens := balanced.tokens
  have products := balanced.products
  unfold inside at tokens
  omega

end Balanced

end Invariant

/-! ## One step -/

section Steps

variable {Thread : Type u} [DecidableEq Thread]

/-- A step of a thread that takes its tokens from one semaphore and gives them to the other, with
the products that it counts. -/
inductive Moves (thread : Thread) (pc : Thread → Pc) (takes gives : osSemaphore) :
    (Thread → Pc) → osSemaphore → osSemaphore → Nat → List osStatus → Prop where
  | acquire {taken : osSemaphore} (at_ : pc thread = .osSemaphoreAcquire)
      (acquired : osSemaphoreAcquire takes = some taken) :
      Moves thread pc takes gives (Function.update pc thread .product_number) taken gives 0 []
  | count (at_ : pc thread = .product_number) :
      Moves thread pc takes gives (Function.update pc thread .osSemaphoreRelease) takes gives 1 []
  | release (at_ : pc thread = .osSemaphoreRelease) :
      Moves thread pc takes gives (Function.update pc thread .osSemaphoreAcquire) takes
        (osSemaphoreRelease gives).1 0 [(osSemaphoreRelease gives).2]

/-- On each side of the count, what lies in the semaphore and what the threads have of it changes
by what is counted; a release finds room if the threads have no more than is missing there. -/
theorem Moves.kept [Fintype Thread] {thread : Thread} {pc next : Thread → Pc}
    {takes gives taken given : osSemaphore} {counted : Nat} {statuses : List osStatus}
    (room : gives.tokens + census pc .osSemaphoreRelease ≤ gives.max_count)
    (moves : Moves thread pc takes gives next taken given counted statuses) :
    (taken.max_count = takes.max_count ∧ given.max_count = gives.max_count) ∧
      taken.tokens + census next .product_number + counted =
        takes.tokens + census pc .product_number ∧
      given.tokens + census next .osSemaphoreRelease =
        gives.tokens + census pc .osSemaphoreRelease + counted ∧
      ∀ status ∈ statuses, status = osOK := by
  cases moves with
  | acquire at_ acquired =>
      obtain ⟨fewer, sameMax⟩ := osSemaphoreAcquire_eq_some_iff.mp acquired
      have entered := census_entered at_ .product_number (by decide)
      have elsewhere := census_elsewhere at_ .product_number .osSemaphoreRelease (by decide)
      exact ⟨⟨sameMax.symm, rfl⟩, by omega, by omega, nofun⟩
  | count at_ =>
      have left := census_left at_ .osSemaphoreRelease (by decide)
      have entered := census_entered at_ .osSemaphoreRelease (by decide)
      exact ⟨⟨rfl, rfl⟩, by omega, by omega, nofun⟩
  | release at_ =>
      have held := census_pos at_
      have left := census_left at_ .osSemaphoreAcquire (by decide)
      have elsewhere := census_elsewhere at_ .osSemaphoreAcquire .product_number (by decide)
      rw [osSemaphoreRelease_of_room (by omega)]
      exact ⟨⟨rfl, rfl⟩, by omega, by simp only; omega, by simp⟩

variable [DecidableEq Producer] [DecidableEq Consumer] {semp next : Semp Producer Consumer}
  {releases : List Release}

omit [DecidableEq Consumer] in
theorem producer_thread_moves {thread : Producer}
    (stepped : producer_thread semp thread = some (next, releases)) :
    ∃ counted, Moves thread semp.producer semp.empty_id semp.filled_id next.producer next.empty_id
        next.filled_id counted (releases.map Release.status) ∧
      next.consumer = semp.consumer ∧ next.product_number = semp.product_number + counted := by
  cases at_ : semp.producer thread with
  | osSemaphoreAcquire =>
      simp only [producer_thread, at_, Option.map_eq_some_iff, Prod.mk.injEq] at stepped
      obtain ⟨empty_id, acquired, rfl, rfl⟩ := stepped
      exact ⟨0, .acquire at_ acquired, rfl, by simp⟩
  | product_number =>
      simp only [producer_thread, at_, Option.some.injEq, Prod.mk.injEq] at stepped
      obtain ⟨rfl, rfl⟩ := stepped
      exact ⟨1, .count at_, rfl, rfl⟩
  | osSemaphoreRelease =>
      simp only [producer_thread, at_, Option.some.injEq, Prod.mk.injEq] at stepped
      obtain ⟨rfl, rfl⟩ := stepped
      exact ⟨0, .release at_, rfl, by simp⟩

omit [DecidableEq Producer] in
theorem consumer_thread_moves {thread : Consumer}
    (stepped : consumer_thread semp thread = some (next, releases)) :
    ∃ counted, Moves thread semp.consumer semp.filled_id semp.empty_id next.consumer next.filled_id
        next.empty_id counted (releases.map Release.status) ∧
      next.producer = semp.producer ∧ next.product_number = semp.product_number - counted := by
  cases at_ : semp.consumer thread with
  | osSemaphoreAcquire =>
      simp only [consumer_thread, at_, Option.map_eq_some_iff, Prod.mk.injEq] at stepped
      obtain ⟨filled_id, acquired, rfl, rfl⟩ := stepped
      exact ⟨0, .acquire at_ acquired, rfl, by simp⟩
  | product_number =>
      simp only [consumer_thread, at_, Option.some.injEq, Prod.mk.injEq] at stepped
      obtain ⟨rfl, rfl⟩ := stepped
      exact ⟨1, .count at_, rfl, rfl⟩
  | osSemaphoreRelease =>
      simp only [consumer_thread, at_, Option.some.injEq, Prod.mk.injEq] at stepped
      obtain ⟨rfl, rfl⟩ := stepped
      exact ⟨0, .release at_, rfl, by simp⟩

end Steps

section Safety

variable [Fintype Producer] [Fintype Consumer] [DecidableEq Producer] [DecidableEq Consumer]
  {semp next : Semp Producer Consumer} {releases : List Release}

theorem balanced_of_step {thread : Producer ⊕ Consumer} (balanced : Balanced semp)
    (stepped : (machine Producer Consumer).step semp thread = some (next, releases)) :
    Balanced next ∧ ∀ release ∈ releases, release.status = osOK := by
  obtain ⟨emptyMax, filledMax, tokens, products⟩ := balanced
  unfold inside at tokens
  cases thread with
  | inl producer =>
      obtain ⟨counted, moves, others, number⟩ := producer_thread_moves stepped
      obtain ⟨⟨takenMax, givenMax⟩, taken, given, accepted⟩ := moves.kept (by omega)
      refine ⟨⟨by omega, by omega, ?_, ?_⟩, List.forall_mem_map.mp accepted⟩
      · rw [inside, inside, others]
        omega
      · rw [others]
        omega
  | inr consumer =>
      obtain ⟨counted, moves, others, number⟩ := consumer_thread_moves stepped
      obtain ⟨⟨takenMax, givenMax⟩, taken, given, accepted⟩ := moves.kept (by omega)
      refine ⟨⟨by omega, by omega, ?_, ?_⟩, List.forall_mem_map.mp accepted⟩
      · rw [inside, inside, others]
        omega
      · rw [others]
        omega

/-- In every run of any number of threads the buffer holds between none and
`BUFFER_SIZE` products, and no release is refused. -/
theorem buffer_bounded {start : Semp Producer Consumer} {threads : List (Producer ⊕ Consumer)}
    (created : rtosv2_semp_main Producer Consumer = some start)
    (run : (machine Producer Consumer).Run start threads semp releases) :
    (0 ≤ semp.product_number ∧ semp.product_number ≤ BUFFER_SIZE) ∧
      ∀ release ∈ releases, release.status = osOK := by
  have safe : Balanced semp ∧ ∀ release ∈ releases, release.status = osOK := by
    refine run.invariant
      (fun semp releases => Balanced semp ∧ ∀ release ∈ releases, release.status = osOK)
      ⟨balanced_start created, by simp⟩ ?_
    rintro semp releases thread next emitted ⟨balanced, accepted⟩ stepped
    obtain ⟨kept, now⟩ := balanced_of_step balanced stepped
    refine ⟨kept, fun release membership => ?_⟩
    rcases List.mem_append.mp membership with earlier | last
    · exact accepted release earlier
    · exact now release last
  exact ⟨safe.1.product_number_bounds, safe.2⟩

/-- Two producers and a consumer, with two products counted and one of them taken. -/
theorem buffer_bounded_three :
    ∃ start semp releases, rtosv2_semp_main Bool (Fin 1) = some start ∧
      (machine Bool (Fin 1)).Run start
        [.inl true, .inl false, .inl true, .inl true, .inr 0, .inl false, .inr 0] semp releases ∧
      (0 ≤ semp.product_number ∧ semp.product_number ≤ BUFFER_SIZE) ∧
      ∀ release ∈ releases, release.status = osOK := by
  obtain ⟨start, created, executed⟩ : ∃ start, rtosv2_semp_main Bool (Fin 1) = some start ∧
      ((machine Bool (Fin 1)).exec start
        [.inl true, .inl false, .inl true, .inl true, .inr 0, .inl false, .inr 0]).map
          (fun result => result.1.product_number) = some 1 := ⟨_, rfl, rfl⟩
  obtain ⟨semp, releases, run, -⟩ := Machine.exists_run_of_exec _ _ start _ _ executed
  exact ⟨start, semp, releases, created, run, buffer_bounded created run⟩

end Safety

end WifiIot.Semaphore
