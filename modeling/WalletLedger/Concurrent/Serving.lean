import WalletLedger.Concurrent.Claims

/-!
# The owner of a key

A request that has claimed its key runs its view, and then stores the response or gives the key
back.

* `Handles` — a session keeps the discipline of `claiming` while it runs a program.
* `Serving` — the key is the session's own; `Viewing`, `Releasing` — with its view running, and
  with the view's exception on its way out.
* `handles_view`, `handles_release`, `handles_store` — the view, and what follows it when it has
  raised or returned.
-/

namespace WalletLedger

variable {ι : Type} [DecidableEq ι] {cfg : Config} {web : Web} {key requestHash : String}
  {db₀ : Database} {s t : Shared ι} {i j : ι} {r : Request} {id : Id} {α : Type}

/-- The wrapper rolls back only a view that has committed no effects. -/
def RaisesEarly (i : ι) (r : Request) (s : Shared ι) : Prop := r = .rollback → ¬ s.RunCommitted i

instance (i : ι) (r : Request) (s : Shared ι) : Decidable (RaisesEarly i r s) :=
  inferInstanceAs (Decidable (r = .rollback → ¬ s.RunCommitted i))

/-- The session keeps the discipline while it runs the program, and ends in `Q`. -/
abbrev Handles (cfg : Config) (key requestHash : String) (db₀ : Database) (i : ι) (p : App α)
    (Q : Except Exn α → Shared ι → Prop) (s : Shared ι) : Prop :=
  wp (machine ι cfg) (claiming ι key requestHash db₀) RaisesEarly i p Q s

/-! ## Requests -/

section requests

variable {Q : Except Exn α → Shared ι → Prop} {k : r.Answer → App α}

theorem handles_call
    (h : ∀ t, Unhindered key requestHash db₀ i s t → Claims key t → RaisesEarly i r t →
      t.locks.blocked i (t.wanted cfg i r) = false →
      (claiming ι key requestHash db₀).Keeps i t (t.after cfg i r) ∧
        Handles cfg key requestHash db₀ i (k (Conn.exec cfg r (t.conn i)).1) Q
          (t.after cfg i r)) :
    Handles cfg key requestHash db₀ i (.call r k) Q s := by
  intro t hrely hinv hC v u hx
  obtain ⟨hb, rfl, rfl⟩ := Shared.exec_eq_some hx
  exact h t hrely hinv hC hb

/-- A request that is no commit. -/
theorem handles_idle (hr : r ≠ .commit)
    (h : ∀ t, Unhindered key requestHash db₀ i s t → Claims key t → RaisesEarly i r t →
      t.locks.blocked i (t.wanted cfg i r) = false →
      Handles cfg key requestHash db₀ i (k (Conn.exec cfg r (t.conn i)).1) Q (t.after cfg i r)) :
    Handles cfg key requestHash db₀ i (.call r k) Q s :=
  handles_call fun t hrely hinv hC hb =>
    ⟨hinv.keeps_idle hb fun h => absurd h hr, h t hrely hinv hC hb⟩

end requests

/-- A query of a session that answers. -/
theorem handles_select {Q : Except Exn α → Shared ι → Prop} {q : Query}
    {k : (Request.select q).Answer → App α} (hs : (s.sessions i).failed = false)
    (h : ∀ t, Unhindered key requestHash db₀ i s t → Claims key t →
      (t.after cfg i (.select q)).sessions i = t.sessions i →
      Handles cfg key requestHash db₀ i (k (.ok (q.eval (t.conn i).view))) Q
        (t.after cfg i (.select q))) :
    Handles cfg key requestHash db₀ i (.call (.select q) k) Q s := by
  refine handles_idle (by simp) fun t hrely hinv _ _ => ?_
  have hf : ¬ (t.conn i).session.failed = true := by
    show ¬ (t.sessions i).failed = true
    rw [hrely.frame.session]
    simp [hs]
  have hexec : Conn.exec cfg (.select q) (t.conn i) = (.ok (q.eval (t.conn i).view), t.conn i) := by
    rw [Conn.exec_select, if_neg hf]
  rw [hexec]
  refine h t hrely hinv ?_
  rw [Shared.after_self, hexec]
  rfl

/-- A statement that goes through. -/
theorem handles_mutate {Q : Except Exn α → Shared ι → Prop} {m : Mutation}
    {k : (Request.mutate m).Answer → App α} (hs : (s.sessions i).failed = false)
    (h : ∀ t, Unhindered key requestHash db₀ i s t → Claims key t →
      ∃ v w, m.exec cfg t.store.seqs (t.conn i).view = .ok (v, w) ∧
        ((t.after cfg i (.mutate m)).sessions i = ⟨(t.sessions i).writes ++ [w], false⟩ →
          Handles cfg key requestHash db₀ i (k (.ok v)) Q (t.after cfg i (.mutate m)))) :
    Handles cfg key requestHash db₀ i (.call (.mutate m) k) Q s := by
  refine handles_idle (by simp) fun t hrely hinv _ _ => ?_
  obtain ⟨v, w, hw, hgo⟩ := h t hrely hinv
  have hf : (t.conn i).session.failed = false := by
    show (t.sessions i).failed = false
    rw [hrely.frame.session, hs]
  have hexec := Conn.exec_goes hf hw
  rw [hexec]
  refine hgo ?_
  rw [Shared.after_self, hexec]
  rfl

/-! ## The owner of the key -/

/-- The key is the session's own: after what the others have made of the table stands its row,
without a response.  As long as its view has committed nothing, that is all it has changed. -/
structure Serving (key requestHash : String) (db₀ : Database) (id : Id) (i : ι) (s : Shared ι) :
    Prop where
  owns : s.Owns i
  keys : s.store.db.keys =
    (replay (s.others i) db₀).keys ++ [claimedRow id key requestHash]
  whole : ¬ s.RunCommitted i →
    s.store.db = (Write.addKey (claimedRow id key requestHash)).apply (replay (s.others i) db₀)

namespace Serving

theorem congr (h : Serving key requestHash db₀ id i s) (hdb : t.store.db = s.store.db)
    (hown : t.own i = s.own i) (hothers : t.others i = s.others i) :
    Serving key requestHash db₀ id i t where
  owns := by
    unfold Shared.Owns
    rw [hown]
    exact h.owns
  keys := by rw [hdb, hothers, h.keys]
  whole hnot := by
    rw [hdb, hothers]
    refine h.whole fun hrun => hnot ?_
    unfold Shared.RunCommitted
    rwa [hown]

theorem later (h : Serving key requestHash db₀ id i s)
    (hrely : Unhindered key requestHash db₀ i s t) : Serving key requestHash db₀ id i t := by
  obtain ⟨hdb, hothers⟩ := hrely.alone (.inl h.owns)
  exact h.congr hdb hrely.own hothers

theorem after_idle (h : Serving key requestHash db₀ id i s) (cfg : Config)
    (hr : r = .commit → (s.sessions i).failed = true) :
    Serving key requestHash db₀ id i (s.after cfg i r) := by
  obtain ⟨hdb, hcommits⟩ := Shared.after_idle cfg hr
  exact h.congr hdb (Shared.own_congr hcommits i) (Shared.others_congr hcommits i)

theorem mem (h : Serving key requestHash db₀ id i s) :
    claimedRow id key requestHash ∈ s.store.db.keys := by
  rw [h.keys]
  simp

theorem find (h : Serving key requestHash db₀ id i s) (hinv : Claims key s) :
    s.store.db.keys.find? (fun k => k.key = key) = some (claimedRow id key requestHash) :=
  find?_of_key hinv.table.unique h.mem

/-- No response is stored. -/
theorem unstored (h : Serving key requestHash db₀ id i s) (hinv : Claims key s) :
    s.store.db.storedResponse key requestHash = none := by
  cases hstored : s.store.db.storedResponse key requestHash with
  | none => rfl
  | some response =>
    obtain ⟨k, hk, hkey, -, hresponse⟩ := hinv.table.storedResponse_iff.1 hstored
    obtain rfl : k = claimedRow id key requestHash :=
      eq_of_key_eq hinv.table.unique hk h.mem hkey
    cases hresponse

/-- The rows of the others have other identifiers. -/
theorem ids (h : Serving key requestHash db₀ id i s) (hinv : Claims key s) :
    ∀ k ∈ (replay (s.others i) db₀).keys, k.id ≠ id := by
  intro k hk hid
  have hids := hinv.table.ids
  rw [h.keys, List.map_append, List.nodup_append] at hids
  exact hids.2.2 k.id (List.mem_map_of_mem hk) id (by simp [claimedRow]) hid

/-- A commit beside the keys. -/
theorem commit (h : Serving key requestHash db₀ id i s) (cfg : Config)
    (hf : (s.sessions i).failed = false) (hoff : (s.conn i).session.OffKeys) :
    Serving key requestHash db₀ id i (s.after cfg i .commit) where
  owns := by
    have hwrites : ∀ w ∈ (s.sessions i).writes, w.touchesKeys = false := hoff
    unfold Shared.Owns
    rw [Shared.own_after_commit cfg hf, List.foldl_append, owns_of_offKeys hwrites]
    exact h.owns
  keys := by
    rw [(Shared.after_commit cfg hf).1, Shared.others_after_commit cfg hf, hoff.view]
    exact h.keys
  whole hnot := by
    have hnone : (s.sessions i).writes = [] := by
      refine List.eq_nil_iff_forall_not_mem.2 fun w hw => hnot ⟨w, ?_, hoff w hw⟩
      rw [Shared.own_after_commit cfg hf]
      exact List.mem_append_right _ hw
    have hview : (s.conn i).view = s.store.db := by
      show replay (s.sessions i).writes s.store.db = _
      rw [hnone, replay_nil]
    rw [(Shared.after_commit cfg hf).1, Shared.others_after_commit cfg hf, hview]
    refine h.whole fun ⟨w, hw, hbeside⟩ => hnot ⟨w, ?_, hbeside⟩
    rw [Shared.own_after_commit cfg hf]
    exact List.mem_append_left _ hw

end Serving

/-- What a request has answered: a response that is stored or a conflict; and if it has rolled
back, it has left no trace. -/
def Replied (key requestHash : String) (db₀ : Database) (i : ι) (o : Except Exn Response)
    (s : Shared ι) : Prop :=
  (.rollback ∈ s.asked i → s.Traceless db₀ i) ∧
    ∀ response, o = .ok response → s.store.db.storedResponse key requestHash = some response ∨
      ∃ message, response = conflict message

theorem replied_stable (o : Except Exn Response) :
    (claiming ι key requestHash db₀).Stable i (Replied key requestHash db₀ i o) := by
  rintro s t hrely _ ⟨htrace, hstored⟩
  refine ⟨fun hasked => hrely.traceless (htrace ?_), fun response ho => ?_⟩
  · rwa [← hrely.frame.asked]
  · exact (hstored response ho).imp_left (hrely.stored response)

/-! ## The view -/

/-- The session runs its view. -/
structure Viewing (key requestHash : String) (db₀ : Database) (id : Id) (i : ι) (s : Shared ι) :
    Prop where
  serving : Serving key requestHash db₀ id i s
  session : (s.conn i).session.OffKeys
  asked : .rollback ∉ s.asked i

theorem Viewing.later (h : Viewing key requestHash db₀ id i s)
    (hrely : Unhindered key requestHash db₀ i s t) : Viewing key requestHash db₀ id i t where
  serving := h.serving.later hrely
  session := by
    show (t.sessions i).OffKeys
    rw [hrely.frame.session]
    exact h.session
  asked := by
    rw [hrely.frame.asked]
    exact h.asked

/-- One request of the view. -/
theorem Viewing.after (h : Viewing key requestHash db₀ id i s) (hinv : Claims key s)
    (hr : r.ofView = true) (hb : s.locks.blocked i (s.wanted cfg i r) = false) :
    (claiming ι key requestHash db₀).Keeps i s (s.after cfg i r) ∧
      Viewing key requestHash db₀ id i (s.after cfg i r) := by
  have hsession : ((s.after cfg i r).conn i).session.OffKeys := by
    rw [Shared.after_conn]
    exact (h.session.exec cfg (by cases r <;> first | exact hr | rfl)).1
  have hasked : .rollback ∉ (s.after cfg i r).asked i := by
    rw [Shared.after_asked, List.mem_append, List.mem_singleton]
    rintro (hmem | rfl)
    · exact h.asked hmem
    · cases hr
  by_cases hidle : r = .commit → (s.sessions i).failed = true
  · exact ⟨hinv.keeps_idle hb hidle, h.serving.after_idle cfg hidle, hsession, hasked⟩
  push Not at hidle
  obtain ⟨rfl, hf⟩ := hidle
  have hf : (s.sessions i).failed = false := by simpa using hf
  have hserving := h.serving.commit cfg hf h.session
  refine ⟨hinv.keeps_commit cfg hf (.inl h.serving.owns) (h.serving.unstored hinv) ?_ (fun _ => ?_)
    fun _ => hserving.owns, hserving, hsession, hasked⟩
  · rw [h.session.view]
    exact hinv.table
  · rw [h.session.view]
    exact hinv.taken i h.serving.owns

/-- The view commits under its claim, and does not roll back. -/
theorem handles_view {view : App Response} (hview : view.All fun r => r.ofView = true)
    (h : Viewing key requestHash db₀ id i s) :
    Handles cfg key requestHash db₀ i view (fun _ => Viewing key requestHash db₀ id i) s := by
  refine wp_of_stable (P := fun r => r.ofView = true)
    (fun s t hrely _ hs => Viewing.later hs hrely) (fun r hr t v u hinv _ ht hx => ?_) hview h
  obtain ⟨hb, -, rfl⟩ := Shared.exec_eq_some hx
  exact ht.after hinv hr hb

/-! ## The view has raised -/

/-- The view has committed nothing, and the session has these writes pending. -/
structure Releasing (key requestHash : String) (db₀ : Database) (id : Id) (i : ι) (ws : List Write)
    (s : Shared ι) : Prop where
  serving : Serving key requestHash db₀ id i s
  idle : ¬ s.RunCommitted i
  session : s.sessions i = ⟨ws, false⟩

namespace Releasing

variable {ws : List Write}

theorem later (h : Releasing key requestHash db₀ id i ws s)
    (hrely : Unhindered key requestHash db₀ i s t) :
    Releasing key requestHash db₀ id i ws t :=
  ⟨h.serving.later hrely, fun hrun => h.idle (hrely.runCommitted.1 hrun),
    hrely.frame.session.trans h.session⟩

theorem after_idle (h : Releasing key requestHash db₀ id i ws s) (cfg : Config)
    (hr : r ≠ .commit) {ws' : List Write} (hs : (s.after cfg i r).sessions i = ⟨ws', false⟩) :
    Releasing key requestHash db₀ id i ws' (s.after cfg i r) := by
  refine ⟨h.serving.after_idle cfg fun h => absurd h hr, fun hrun => h.idle ?_, hs⟩
  unfold Shared.RunCommitted at hrun ⊢
  rwa [Shared.own_congr (Shared.after_commits hr)] at hrun

/-- The deletion of the row is committed. -/
theorem commit (h : Releasing key requestHash db₀ id i [.deleteKey id] s) (cfg : Config)
    (hinv : Claims key s) :
    (claiming ι key requestHash db₀).Keeps i s (s.after cfg i .commit) ∧
      (s.after cfg i .commit).Traceless db₀ i := by
  have hf : (s.sessions i).failed = false := by rw [h.session]
  have hview : (s.conn i).view = (Write.deleteKey id).apply s.store.db := by
    show replay (s.sessions i).writes s.store.db = _
    rw [h.session]
    rfl
  have hown : (s.after cfg i .commit).own i = s.own i ++ [.deleteKey id] := by
    rw [Shared.own_after_commit cfg hf, h.session]
  have hfree : ¬ (s.after cfg i .commit).Owns i := by
    unfold Shared.Owns
    rw [hown, List.foldl_append]
    simp [Write.owns]
  have hidle : ¬ (s.after cfg i .commit).RunCommitted i := by
    rintro ⟨w, hw, hbeside⟩
    rw [hown, List.mem_append, List.mem_singleton] at hw
    rcases hw with hw | rfl
    · exact h.idle ⟨w, hw, hbeside⟩
    · cases hbeside
  refine ⟨hinv.keeps_commit cfg hf (.inl h.serving.owns) (h.serving.unstored hinv) ?_
    (fun howns => absurd howns hfree) fun hrun => absurd hrun hidle, ?_⟩
  · rw [hview]
    exact hinv.table.filter _
  · -- the row that is deleted is the one that was added
    unfold Shared.Traceless
    rw [(Shared.after_commit cfg hf).1, Shared.others_after_commit cfg hf, hview,
      h.serving.whole h.idle]
    exact deleteKey_addKey (h.serving.ids hinv)

end Releasing

/-- The wrapper frees the key, raises, and nothing is left. -/
theorem handles_release (h : Viewing key requestHash db₀ id i s) (e : Exn) :
    Handles cfg key requestHash db₀ i (releaseKey key >>= fun _ => (.raise e : App Response))
      (onExit (fun _ _ => False) fun e => Replied key requestHash db₀ i (.error e)) s := by
  rw [releaseKey_eq]
  refine handles_idle (by simp) fun t hrely hinv hC _ => ?_
  have hreleasing : Releasing key requestHash db₀ id i [] (t.after cfg i .rollback) :=
    ⟨(h.serving.later hrely).after_idle cfg (by simp), fun hrun => hC rfl ?_, Shared.after_self⟩
  swap
  · unfold Shared.RunCommitted at hrun ⊢
    rwa [Shared.own_congr (Shared.after_commits (by simp))] at hrun
  refine handles_select (by rw [hreleasing.session]) fun t₁ hrely₁ hinv₁ hsession₁ => ?_
  have hreleasing₁ := hreleasing.later hrely₁
  have hview₁ : (t₁.conn i).view = t₁.store.db := by
    show replay (t₁.sessions i).writes t₁.store.db = _
    rw [hreleasing₁.session]
    rfl
  have hfound : (Query.idempotencyKey key).eval (t₁.conn i).view =
      some (claimedRow id key requestHash) := by
    rw [hview₁]
    exact hreleasing₁.serving.find hinv₁
  rw [hfound]
  have hselected := hreleasing₁.after_idle cfg (by simp) (hsession₁.trans hreleasing₁.session)
  refine handles_mutate (by rw [hselected.session]) fun t₂ hrely₂ _ =>
    ⟨(), .deleteKey id, rfl, fun hsession₂ => ?_⟩
  have hreleasing₂ := hselected.later hrely₂
  rw [hreleasing₂.session] at hsession₂
  have hdeleted := hreleasing₂.after_idle cfg (by simp) hsession₂
  refine handles_call fun t₃ hrely₃ hinv₃ _ _ => ?_
  have hreleasing₃ := hdeleted.later hrely₃
  obtain ⟨hkeeps, htrace⟩ := hreleasing₃.commit cfg hinv₃
  have hcommit : (Conn.exec cfg .commit (t₃.conn i)).1 = .ok () := by
    rw [Conn.exec_commit, if_neg]
    simp [Shared.conn, hreleasing₃.session]
  rw [hcommit]
  refine ⟨hkeeps, wp_raise (replied_stable _) ⟨fun _ => htrace, fun response ho => ?_⟩⟩
  cases ho

/-! ## The view has returned -/

/-- A session that has not rolled back may raise. -/
theorem replied_raise {e : Exn} (h : .rollback ∉ s.asked i) :
    Replied key requestHash db₀ i (.error e) s :=
  ⟨fun hasked => absurd hasked h, fun response ho => by cases ho⟩

theorem Shared.rollback_not_mem_after (h : .rollback ∉ s.asked i) (hr : r ≠ .rollback) :
    .rollback ∉ (s.after cfg i r).asked i := by
  rw [Shared.after_asked, List.mem_append, List.mem_singleton]
  rintro (hmem | heq)
  · exact h hmem
  · exact hr heq.symm

/-- The completion of the row is committed, with what the view has left pending. -/
theorem Serving.complete (h : Serving key requestHash db₀ id i s) (cfg : Config)
    (hinv : Claims key s) {ws : List Write} {response : Response}
    (hws : ∀ w ∈ ws, w.touchesKeys = false)
    (hsession : s.sessions i = ⟨ws ++ [.completeKey id response.status response.body], false⟩) :
    (claiming ι key requestHash db₀).Keeps i s (s.after cfg i .commit) ∧
      (s.after cfg i .commit).store.db.storedResponse key requestHash = some response := by
  have hf : (s.sessions i).failed = false := by rw [hsession]
  have hview : (s.conn i).view.keys =
      (Write.completeKey id response.status response.body).applyKeys s.store.db.keys := by
    show (replay (s.sessions i).writes s.store.db).keys = _
    rw [hsession, replay_append]
    show (Write.completeKey id response.status response.body).applyKeys
      (replay ws s.store.db).keys = _
    rw [replay_keys_of_forall hws]
  have htable : KeyTable (s.conn i).view.keys s.store.seqs := by
    rw [hview]
    exact hinv.table.modify fun _ => ⟨rfl, rfl, rfl⟩
  have howns : (s.after cfg i .commit).Owns i := by
    unfold Shared.Owns
    rw [Shared.own_after_commit cfg hf, hsession, List.foldl_append, List.foldl_append,
      owns_of_offKeys hws]
    exact h.owns
  have hrow : ∃ k ∈ (s.conn i).view.keys, k.key = key ∧ k.requestHash = requestHash ∧
      k.responseBody.map (fun body => (⟨k.responseStatus.getD 200, body⟩ : Response)) =
        some response := by
    rw [hview]
    exact ⟨_, mem_modify.2 ⟨_, h.mem, (if_pos rfl).symm⟩, rfl, rfl, rfl⟩
  have hkeeps : (claiming ι key requestHash db₀).Keeps i s (s.after cfg i .commit) := by
    refine hinv.keeps_commit cfg hf (.inl h.owns) (h.unstored hinv) htable (fun _ => ?_)
      fun _ => howns
    obtain ⟨k, hk, hkey, -⟩ := hrow
    exact ⟨k, hk, hkey⟩
  refine ⟨hkeeps, hkeeps.1.table.storedResponse_iff.2 ?_⟩
  rwa [(Shared.after_commit cfg hf).1]

/-- The wrapper stores the response, unless the view has left the session failed. -/
theorem handles_store (h : Viewing key requestHash db₀ id i s) (response : Response) :
    Handles cfg key requestHash db₀ i (storeResponse key response >>= fun _ => .ret response)
      (Replied key requestHash db₀ i) s := by
  cases hs : (s.sessions i).failed with
  | true =>
    refine handles_idle (by simp) fun t hrely _ _ _ => ?_
    have hexec : (Conn.exec cfg (.select (.idempotencyKey key)) (t.conn i)).1 =
        .error .pendingRollback := by
      rw [Conn.exec_select, if_pos]
      exact (congrArg Session.failed hrely.frame.session).trans hs
    rw [hexec]
    exact wp_raise (replied_stable _) (replied_raise
      (Shared.rollback_not_mem_after (h.later hrely).asked (by simp)))
  | false =>
    refine handles_select hs fun t hrely hinv hsession => ?_
    have hviewing := h.later hrely
    have hfound : (Query.idempotencyKey key).eval (t.conn i).view =
        some (claimedRow id key requestHash) := by
      show (t.conn i).view.keys.find? _ = _
      rw [hviewing.session.view]
      exact hviewing.serving.find hinv
    rw [hfound]
    -- the completion joins what the view has left pending
    have hselected : Viewing key requestHash db₀ id i
        (t.after cfg i (.select (.idempotencyKey key))) := by
      refine ⟨hviewing.serving.after_idle cfg (by simp), ?_,
        Shared.rollback_not_mem_after hviewing.asked (by simp)⟩
      show Session.OffKeys ((t.after cfg i _).sessions i)
      rw [hsession]
      exact hviewing.session
    refine handles_mutate ?_ fun t₁ hrely₁ hinv₁ => ?_
    · rw [hsession, hrely.frame.session, hs]
    have hviewing₁ := hselected.later hrely₁
    refine ⟨(), .completeKey id response.status response.body, ?_, fun hsession₁ => ?_⟩
    · dsimp only [Mutation.exec]
      rw [hviewing₁.session.view, if_pos]
      · rfl
      · exact List.any_eq_true.2 ⟨_, hviewing₁.serving.mem, decide_eq_true rfl⟩
    refine handles_call fun t₂ hrely₂ hinv₂ _ _ => ?_
    have hserving₂ := (hviewing₁.serving.after_idle (r := .mutate _) cfg (by simp)).later hrely₂
    have hsession₂ := hrely₂.frame.session.trans hsession₁
    obtain ⟨hkeeps, hstored⟩ := hserving₂.complete cfg hinv₂ hviewing₁.session hsession₂
    have hasked : .rollback ∉ (t₂.after cfg i .commit).asked i := by
      refine Shared.rollback_not_mem_after ?_ (by simp)
      rw [hrely₂.frame.asked]
      exact Shared.rollback_not_mem_after hviewing₁.asked (by simp)
    have hcommit : (Conn.exec cfg .commit (t₂.conn i)).1 = .ok () := by
      rw [Conn.exec_commit, if_neg]
      simp [Shared.conn, hsession₂]
    rw [hcommit]
    refine ⟨hkeeps, wp_ret (replied_stable _) ⟨fun h => absurd h hasked, fun response' ho => ?_⟩⟩
    cases ho
    exact .inl hstored

end WalletLedger
