import WalletLedger.Concurrent.LockSequence

/-!
# Waiting for each other

Each lock is kept to the end of the transaction, so operations that meet the same accounts the
other way round can wait for each other for ever.

* `World.Waits`, `World.Deadlocked` — who waits for whom; `step_of_waits` — who waits takes
  no turn.
* `no_deadlock` — operations that find their accounts in one order never wait for each other in
  a circle; `opposite_transfers` is a run in which two do.
-/

namespace WalletLedger

variable {ι : Type} {cfg : Config}

/-! ## Who waits for whom -/

/-- The request the session is about to issue. -/
def Task.request {Req : Type} {Resp : Req → Type} {ε α : Type} : Task Req Resp ε α → Option Req
  | .running (.call r _) => some r
  | _ => none

section waiting

variable {ε α : Type} (cfg : Config)
  (w : World ι Request Request.Answer ε α (Shared ι))

/-- Session `i` waits for a row that session `j` holds. -/
def World.Waits (i j : ι) : Prop :=
  ∃ r ∈ (w.tasks i).request,
    LockTable.WaitsFor (w.shared.locks.filter fun l => l.row.counts l.mode) i
      ((w.shared.wanted cfg i r).filter fun x => x.1.counts x.2) j

instance [DecidableEq ι] (i j : ι) : Decidable (w.Waits cfg i j) :=
  match h : (w.tasks i).request with
  | none => isFalse (by simp [World.Waits, h])
  | some r => decidable_of_iff
      (LockTable.WaitsFor (w.shared.locks.filter fun l => l.row.counts l.mode) i
        ((w.shared.wanted cfg i r).filter fun x => x.1.counts x.2) j) (by simp [World.Waits, h])

/-- Some sessions wait for each other in a circle. -/
def World.Deadlocked : Prop := ∃ i, Relation.TransGen (w.Waits cfg) i i

variable {cfg w}

theorem waits_iff {i j : ι} :
    w.Waits cfg i j ↔ j ≠ i ∧ ∃ r, (w.tasks i).request = some r ∧
      ∃ row m, (row, m) ∈ w.shared.wanted cfg i r ∧ row.counts m = true ∧
        ∃ m', w.shared.locks.Holds j row m' ∧ row.counts m' = true ∧ m'.conflicts m = true := by
  unfold World.Waits LockTable.WaitsFor LockTable.Holds
  simp only [List.mem_filter, Prod.exists, Option.mem_def]
  grind

/-- A session that waits takes no turn. -/
theorem step_of_waits [DecidableEq ι] {i j : ι} (h : w.Waits cfg i j) :
    w.step (machine ι cfg) i = none := by
  obtain ⟨hne, r, hr, row, m, hwanted, -, m', hheld, -, hm⟩ := waits_iff.1 h
  unfold World.step
  cases hT : w.tasks i with
  | finished o => rfl
  | running p =>
    rw [hT] at hr
    cases p with
    | ret a => cases hr
    | raise e => cases hr
    | call q k =>
      cases hr
      have hblocked : w.shared.locks.blocked i (w.shared.wanted cfg i r) = true :=
        LockTable.blocked_iff.2 ⟨j, hne, (row, m), hwanted, m', hheld, hm⟩
      show Option.map _ (w.shared.exec cfg i r) = none
      rw [Shared.exec, if_pos hblocked]
      rfl

end waiting

/-! ## No circle -/

section theorems

variable [DecidableEq ι] {rank : Id → ℕ} {late : Id → Prop} {s₀ : Store} {calls : ι → Operation}
  {w : World ι Request Request.Answer Exn Unit (Shared ι)}

/-- The world in which any number of operations start. -/
def operating (cfg : Config) (s₀ : Store) (calls : ι → Operation) :
    World ι Request Request.Answer Exn Unit (Shared ι) :=
  World.start (Shared.start s₀) fun i => (calls i).program cfg

/-- In every world that is reached, what a session is about to ask is in order. -/
theorem allowed_of_reaches
    (h : Reaches (machine ι cfg) (FindsInOrder cfg rank late calls)
      (operating cfg s₀ calls) w) {i : ι} {r : Request}
    (hr : (w.tasks i).request = some r) :
    ∃ held, w.shared.Stands cfg i held ∧ (lockOrder rank late (calls i)).allows held r := by
  have hown : ∀ i q held (s : Shared ι) v t, s.Stands cfg i held →
      FindsInOrder cfg rank late calls i q s → (machine ι cfg).exec i q s = some (v, t) →
      (lockOrder rank late (calls i)).expects held q v ∧
        t.Stands cfg i ((lockOrder rank late (calls i)).next held q v) := by
    intro i q held s v t hstands hC hx
    obtain ⟨-, rfl, rfl⟩ := Shared.exec_eq_some hx
    refine ⟨⟨named_of_exec, hC.mono fun a ha => ?_⟩, hstands.after⟩
    rw [mem_forUpdate] at ha ⊢
    exact Shared.mem_held.2 (hstands.holds _ _ ha (by simp))
  have hother : ∀ i j q held (s : Shared ι) v t, j ≠ i → s.Stands cfg j held →
      (machine ι cfg).exec i q s = some (v, t) → t.Stands cfg j held := by
    intro i j q held s v t hj hstands hx
    obtain ⟨-, rfl, rfl⟩ := Shared.exec_eq_some hx
    exact hstands.other hj
  have hstart : ∀ i p, (operating cfg s₀ calls).tasks i = .running p →
      ∃ held, (Shared.start s₀).Stands cfg i held ∧
        (lockOrder rank late (calls i)).Follows p (fun _ _ => True) held := by
    intro i p hp
    cases hp
    exact ⟨[], ⟨fun _ _ _ hh => (by cases hh), fun _ _ hmem => (by cases hmem), fun _ => rfl⟩,
      (calls i).obeys⟩
  cases hT : w.tasks i with
  | finished o =>
    rw [hT] at hr
    cases hr
  | running p =>
    obtain ⟨held, hstands, hfollows⟩ := h.follows (fun i held s => s.Stands cfg i held) hown hother
      (fun _ _ _ _ hj hs => hs.finish hj) hstart hT
    rw [hT] at hr
    cases p with
    | ret a => cases hr
    | raise e => cases hr
    | call q k =>
      cases hr
      exact ⟨held, hstands, hfollows.1⟩

/-- The session holds an account's row. -/
def Shared.onAccount (s : Shared ι) (i : ι) : Bool :=
  (s.held i).any fun
    | (.account a, m) => (Row.account a).counts m
    | _ => false

theorem Shared.onAccount_iff {s : Shared ι} {i : ι} :
    s.onAccount i = true ↔
      ∃ a m, (Row.account a).counts m = true ∧ s.locks.Holds i (.account a) m := by
  simp only [Shared.onAccount, List.any_eq_true, Prod.exists]
  constructor
  · rintro ⟨row, m, hmem, h⟩
    cases row with
    | account a => exact ⟨a, m, h, Shared.mem_held.1 hmem⟩
    | _ => cases h
  · rintro ⟨a, m, hm, h⟩
    exact ⟨_, m, Shared.mem_held.2 h, hm⟩

/-- The place in the order of the account that is asked for; the first account comes before
all the others, and a transaction before it. -/
def World.height (rank : Id → ℕ)
    (w : World ι Request Request.Answer Exn Unit (Shared ι)) (i : ι) : ℕ :=
  match (w.tasks i).request.bind Request.claim with
  | none => 0
  | some (a, _) => if w.shared.onAccount i then rank a + 2 else 1

omit [DecidableEq ι] in
/-- What a session waits for, of the rows in question. -/
theorem claim_of_wanted {s : Shared ι} {i : ι} {r : Request} {row : Row} {m : LockMode}
    (h : (row, m) ∈ s.wanted cfg i r) (hm : row.counts m = true) :
    (∃ a, r.claim = some (a, m) ∧ row = .account a ∧
      (m = .keyShare → cfg.foreignKeyLocks = true)) ∨
      r.claim = none ∧ ∃ reference, r = .select (.transactionForUpdate reference) := by
  unfold Shared.wanted at h
  split at h
  · cases h
  · cases r with
    | select q =>
      cases q with
      | accountForUpdate id =>
        obtain ⟨a, ha, heq⟩ := List.mem_map.1 h
        have hid : a.id = id := by simpa using List.find?_some (Option.mem_toList.1 ha)
        cases heq
        exact .inl ⟨id, rfl, hid ▸ rfl, by simp⟩
      | transactionForUpdate reference => exact .inr ⟨rfl, reference, rfl⟩
      | _ => cases h
    | mutate u =>
      obtain ⟨rfl, hfk, a, ha, rfl⟩ := (mem_locks_mutate hm).1 h
      exact .inl ⟨a, ha, rfl, fun _ => hfk⟩
    | _ => cases h

omit [DecidableEq ι] in
/-- Nobody waits for an account that it holds already. -/
theorem Shared.Stands.ahead {s : Shared ι} {j k : ι} {held : List (Row × LockMode)} {c : Id}
    {n n' : LockMode} (h : s.Stands cfg j held) (hlocks : s.locks.Exclusive)
    (hclaim : Claimable rank late held c n) (hfk : n = .keyShare → cfg.foreignKeyLocks = true)
    (hkj : k ≠ j) (hwait : s.locks.Holds k (.account c) n') (hconflict : n'.conflicts n = true) :
    (∀ b, (.account b, .update) ∈ held → rank b < rank c) ∧
      ∀ b, (.account b, .keyShare) ∈ held → (.account b, .update) ∈ held ∨ ¬ late b := by
  cases hclaim with
  | ahead hafter hshared _ => exact ⟨hafter, hshared⟩
  | again hn hheld =>
    exfalso
    obtain rfl : n' = .update := by
      rw [hn] at hconflict
      cases n' <;> first | rfl | cases hconflict
    rcases hheld with hheld | hheld
    · exact hlocks.not_holds (h.holds _ _ hheld (by simp)) hkj hwait
    · exact hlocks.not_holds hwait hkj.symm (h.holds _ _ hheld fun _ => hfk hn)

/-- An account that is locked while another is held is `late`. -/
theorem Shared.Stands.late_of_update {s : Shared ι} {i : ι} {held : List (Row × LockMode)} {a : Id}
    (h : s.Stands cfg i held) (hclaim : Claimable rank late held a .update)
    (hon : s.onAccount i = true) : late a := by
  cases hclaim with
  | again hm _ => cases hm
  | ahead _ _ hlate =>
    obtain ⟨b, m, hm, hb⟩ := Shared.onAccount_iff.1 hon
    exact hlate rfl ⟨b, m, h.counted _ _ hm hb⟩

/-- The height climbs from a session to the one it waits for. -/
theorem climbs (h : Reaches (machine ι cfg) (FindsInOrder cfg rank late calls)
      (operating cfg s₀ calls) w) {i j k : ι} (hij : w.Waits cfg i j) (hjk : w.Waits cfg j k) :
    w.height rank i < w.height rank j := by
  obtain ⟨-, r, hr, row, m, hwanted, hm, m', hheld, hm', hconflict⟩ := waits_iff.1 hij
  obtain ⟨hkj, q, hq, row', n, hwanted', hn, n', hheld', -, hconflict'⟩ := waits_iff.1 hjk
  obtain ⟨heldi, hstandsi, hallowsi⟩ := allowed_of_reaches h hr
  obtain ⟨heldj, hstandsj, hallowsj⟩ := allowed_of_reaches h hq
  have hrow : (row, m') ∈ heldj := hstandsj.counted row m' hm' hheld
  unfold World.height
  rw [hr, hq, Option.bind_some, Option.bind_some]
  -- who holds something has asked for an account
  rcases claim_of_wanted hwanted' hn with ⟨c, hc, rfl, hfk⟩ | ⟨-, reference, rfl⟩
  swap
  · rw [hallowsj.2 reference rfl] at hrow
    cases hrow
  rw [hc]
  rcases claim_of_wanted hwanted hm with ⟨a, ha, rfl, -⟩ | ⟨hnone, -⟩
  swap
  · rw [hnone]
    show 0 < ite _ _ _
    split <;> omega
  rw [ha]
  have honj : w.shared.onAccount j = true := Shared.onAccount_iff.2 ⟨a, m', hm', hheld⟩
  simp only [honj, if_true]
  split
  · rename_i honi
    obtain ⟨hafter, hshared⟩ := hstandsj.ahead (exclusive_of_reaches LockTable.exclusive_nil h)
      (hallowsj.1 c n hc) hfk hkj hheld' hconflict'
    have hlt : rank a < rank c := by
      cases m' with
      | update => exact hafter a hrow
      | noKeyUpdate => cases hm'
      | keyShare =>
        -- only a lock for update waits for it, and the account is late then
        obtain rfl : m = .update := by cases m <;> first | rfl | cases hconflict
        rcases hshared a hrow with hupdate | hnot
        · exact hafter a hupdate
        · exact absurd (hstandsi.late_of_update (hallowsi.1 a _ ha) honi) hnot
    omega
  · omega

/-- **No deadlock.**  Whatever operations run at the same time, as long as what each of them
finds comes in order, there never is a circle of operations that wait for each other's rows. -/
theorem no_deadlock (h : Reaches (machine ι cfg) (FindsInOrder cfg rank late calls)
      (operating cfg s₀ calls) w) :
    ¬ w.Deadlocked cfg := by
  rintro ⟨i, hcycle⟩
  exact not_transGen_of_lt (w.height rank) (fun _ _ _ hij hjk => climbs h hij hjk) i hcycle

end theorems

/-- Alice and Bob have 50 each. -/
def bothFunded : Store :=
  runAll (offlineConfig 1000) [.createAccount "alice" "EUR", .createAccount "bob" "EUR",
    .initiateDeposit 0 100 "card" ⟨none, none⟩ (some "c1"), .settle "2" none none,
    .execute 0 1 50 (some "c2")] Store.empty

/-- Alice and Bob pay each other. -/
def payEachOther : Fin 2 → Operation
  | 0 => .execute 0 1 10 (some "c3")
  | 1 => .execute 1 0 20 (some "c4")

/-- Each transfer has locked its sender, and waits to reference its receiver: neither takes a
turn. -/
theorem opposite_transfers :
    ∃ w, Reaches (machine (Fin 2) (offlineConfig 1000)) anyTurn
        (operating (offlineConfig 1000) bothFunded payEachOther) w ∧
      w.Deadlocked (offlineConfig 1000) ∧
      ∀ i, w.step (machine (Fin 2) (offlineConfig 1000)) i = none := by
  obtain ⟨w, hw, h₀, h₁⟩ : ∃ w, Reaches (machine (Fin 2) (offlineConfig 1000)) anyTurn
        (operating (offlineConfig 1000) bothFunded payEachOther) w ∧
      w.Waits (offlineConfig 1000) 0 1 ∧ w.Waits (offlineConfig 1000) 1 0 :=
    exists_reaches (List.replicate 7 0 ++ List.replicate 7 1) (by decide +kernel)
  refine ⟨w, hw, ⟨0, (Relation.TransGen.single h₀).tail h₁⟩, fun i => ?_⟩
  match i with
  | 0 => exact step_of_waits h₀
  | 1 => exact step_of_waits h₁

/-- Alice pays Bob again, and the first payment is reversed. -/
def payAndReverse : Fin 2 → Operation
  | 0 => .execute 0 1 10 (some "c3")
  | 1 => .reverse 6 (some "c4")

/-- The reversal waits for the transfer, and that is all. -/
theorem no_deadlock_in_order :
    ∃ w, Reaches (machine (Fin 2) (offlineConfig 1000))
        (FindsInOrder (offlineConfig 1000) (fun a => a) (fun _ => True) payAndReverse)
        (operating (offlineConfig 1000) bothFunded payAndReverse) w ∧
      w.Waits (offlineConfig 1000) 1 0 ∧ ¬ w.Deadlocked (offlineConfig 1000) := by
  obtain ⟨w, hw, hwaits⟩ : ∃ w, Reaches (machine (Fin 2) (offlineConfig 1000))
        (FindsInOrder (offlineConfig 1000) (fun a => a) (fun _ => True) payAndReverse)
        (operating (offlineConfig 1000) bothFunded payAndReverse) w ∧
      w.Waits (offlineConfig 1000) 1 0 :=
    exists_reaches (List.replicate 7 0 ++ List.replicate 2 1) (by decide +kernel)
  exact ⟨w, hw, hwaits, no_deadlock hw⟩

end WalletLedger
