/-
  PluginHost.Proofs.Wire.Limit

  With prepared replies a call that ends at all ends within a known number of attempts.
  Once the replies are used up every attempt comes to the same, so that from there on
  only a ceiling can end the call.
-/
import PluginHost.Call.Peer
import PluginHost.Proofs.Wire.Retrying

namespace PluginHost

/-! ## When the replies are used up -/

theorem Http.Server.reply?_succ {server : Server} {index : Nat} (h : server.replyCount ≤ index)
    (r : Request) : server.reply? (index + 1) r = server.reply? index r := by
  induction server with
  | absent => rfl
  | program answer => rfl
  | silent => rfl
  | scripted replies =>
    have hlength : replies.length ≤ index := h
    have hnow : replies[index]? = none := List.getElem?_eq_none hlength
    have hnext : replies[index + 1]? = none :=
      List.getElem?_eq_none (Nat.le_succ_of_le hlength)
    simp only [reply?, hnow, hnext]
  | slow delay server ih => simp only [reply?, ih h]

theorem Rest.exchange_succ {k : Caller} {network : Http.Network} {index : Nat}
    (h : ((localPort? k.base).elim 0 fun port => (network port).replyCount) ≤ index)
    (r : Http.Request) : exchange k network (index + 1) r = exchange k network index r := by
  unfold exchange
  cases hport : localPort? k.base with
  | none => rfl
  | some port =>
    rw [hport] at h
    simp only [Http.Server.reply?_succ h]

namespace Peer

variable (network : Http.Network) (c : Call) (l : CallLine) (s : NameMap Peer × Nat)

theorem behind_insert (peers : NameMap Peer) (connector : String) (p : Peer) :
    behind (peers.insert connector p) connector = p := by
  rw [behind, NameMap.get?_insert, if_pos rfl]
  rfl

theorem before_rest {o : Rest.Options} (hl : l.line = .rest o) (i : Nat) :
    (wire network).before c l s i = (s.1, s.2 + i) := by
  induction i with
  | zero => rfl
  | succ i ih =>
    rw [Wire.before_succ, ih, Wire.attempt, hl]
    rfl

theorem replies_attempt {port : UInt16} {connector : Option String}
    (hl : l.line = .rpc port connector) :
    (behind ((wire network).attempt c l s).2.1 (connector.getD l.peer)).replies
      = (behind s.1 (connector.getD l.peer)).replies.drop 1 := by
  simp only [Wire.attempt, hl, Wire.converse, wire, dial]
  -- A reply is used up whether or not the connection was made.
  cases (behind s.1 (connector.getD l.peer)).replies.headD .standard with
  | refused detail => exact congrArg replies (behind_insert _ _ _)
  | broken detail =>
    refine (congrArg replies (behind_insert _ _ _)).trans ?_
    exact congrArg replies (behind_insert _ _ _)
  | reply status text bytes =>
    cases c
    all_goals
      refine (congrArg replies (behind_insert _ _ _)).trans ?_
      exact congrArg replies (behind_insert _ _ _)

theorem replies_before {port : UInt16} {connector : Option String}
    (hl : l.line = .rpc port connector) (i : Nat) :
    (behind ((wire network).before c l s i).1 (connector.getD l.peer)).replies
      = (behind s.1 (connector.getD l.peer)).replies.drop i := by
  induction i with
  | zero => rfl
  | succ i ih => rw [Wire.before_succ, replies_attempt network c l _ hl, ih, List.drop_drop]

theorem attempt_of_no_replies {s : NameMap Peer × Nat} {port : UInt16}
    {connector : Option String} (hl : l.line = .rpc port connector)
    (h : (behind s.1 (connector.getD l.peer)).replies = []) :
    ((wire network).attempt c l s).1.outcome
      = Rpc.judge port (Rpc.Prepared.standard.outcome c) := by
  simp only [Wire.attempt, hl, Wire.converse, wire, dial, h, List.headD_nil]
  cases c <;> rfl

end Peer

/-! ## When a call ends -/

namespace CallLine

variable {l : CallLine} {network : Http.Network} {peers : NameMap Peer} {c : Call}

/-- After the prepared replies every attempt comes to the same. -/
theorem attempt_succ {i : Nat} (h : l.replyCount network peers ≤ i) :
    ((Peer.wire network).attempt c l ((Peer.wire network).before c l (peers, 0) (i + 1))).1.outcome
      = ((Peer.wire network).attempt c l
          ((Peer.wire network).before c l (peers, 0) i)).1.outcome := by
  rw [replyCount] at h
  cases hl : l.line with
  | rest o =>
    rw [hl] at h
    have hsame := Rest.exchange_succ (k := o.caller) h (Rest.request c)
    rw [Peer.before_rest network c l _ hl, Peer.before_rest network c l _ hl]
    simp only [Wire.attempt, hl, Peer.wire, Nat.zero_add, hsame]
  | rpc port connector =>
    rw [hl] at h
    have hused (j : Nat) (hj : i ≤ j) :
        (Peer.behind ((Peer.wire network).before c l (peers, 0) j).1
          (connector.getD l.peer)).replies = [] := by
      rw [Peer.replies_before network c l _ hl]
      exact List.drop_eq_nil_of_le (Nat.le_trans h hj)
    rw [Peer.attempt_of_no_replies network c l hl (hused (i + 1) (Nat.le_succ i)),
      Peer.attempt_of_no_replies network c l hl (hused i (Nat.le_refl i))]

/-- A call has no result exactly if it would have none after any number of attempts. -/
theorem run_eq_none_iff {now : Nat} :
    l.run network peers c now = none ↔
      ∀ fuel, l.runOver (Peer.wire network) c now fuel (peers, 0) = none := by
  have hrun : l.run network peers c now = none ↔
      l.runOver (Peer.wire network) c now (l.attemptLimit network peers) (peers, 0) = none := by
    rw [run]
    cases l.runOver (Peer.wire network) c now (l.attemptLimit network peers) (peers, 0) <;> simp
  rw [hrun]
  refine ⟨fun hnone fuel => ?_, fun h => h _⟩
  by_contra hsome
  obtain ⟨⟨run, s'⟩, hends⟩ := Option.ne_none_iff_exists'.1 hsome
  obtain ⟨n, -, hn, hleft⟩ := (Wire.runOver_eq_some_iff _ c l _).1 hends
  -- The attempt that ends the call is one of those that are made.
  have hlimit : n < l.attemptLimit network peers := by
    by_contra hle
    obtain ⟨m, rfl⟩ : ∃ m, n = m + 1 := ⟨n - 1, by unfold attemptLimit at hle; omega⟩
    have hused : l.replyCount network peers ≤ m := by
      unfold attemptLimit at hle
      omega
    have hfinish := hn.finish
    rw [attempt_succ hused] at hfinish
    have hceiling := Retry.Policy.lt_of_judge (hn.again m (Nat.lt_succ_self m)) hfinish
    unfold attemptLimit at hle
    omega
  have hmade := (Wire.runOver_eq_some_iff _ c l _).2 ⟨n, hlimit, hn, hleft⟩
  rw [hnone] at hmade
  cases hmade

end CallLine

end PluginHost
