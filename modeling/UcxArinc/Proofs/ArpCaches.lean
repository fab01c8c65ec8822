import UcxArinc.Implementation.ArpCache

set_option autoImplicit false

/-! # What the ARP cache knows

The slots are filled in turn, so that they hold the addresses of the last sixteen updates that were
insertions. No two of these are the same, since an address is inserted only if no slot has it. -/

namespace UcxArinc

namespace ArpCache

variable {cache : ArpCache} {ip : IpAddr} {mac : MacAddr} {past : List (Call × Int)} {call : Call} {i k m : Nat}

/-! ## Looking for an address -/

/-- The search ends where the address is, or behind the last slot. -/
theorem findEntry_spec (cache : ArpCache) (ip : IpAddr) (turns i : Nat) :
    (∃ k, i ≤ k ∧ k < i + turns ∧ cache.findEntry ip turns i = k ∧ (cache.entries k).ip = ip) ∨
      cache.findEntry ip turns i = i + turns ∧ ∀ k, i ≤ k → k < i + turns → (cache.entries k).ip ≠ ip := by
  induction turns generalizing i with
  | zero => exact Or.inr ⟨rfl, fun k hle hlt => absurd hlt (by omega)⟩
  | succ turns ih =>
      unfold findEntry
      by_cases heq : ip = (cache.entries i).ip
      · exact Or.inl ⟨i, Nat.le_refl i, by omega, if_pos heq, heq.symm⟩
      · rw [if_neg heq]
        rcases ih (i + 1) with ⟨k, hle, hlt, hfind, hip⟩ | ⟨hfind, hnone⟩
        · exact Or.inl ⟨k, by omega, by omega, hfind, hip⟩
        · refine Or.inr ⟨by omega, fun k hle hlt => ?_⟩
          rcases Nat.eq_or_lt_of_le hle with rfl | hlt'
          · exact fun h => heq h.symm
          · exact hnone k hlt' (by omega)

/-! ## The history of a cache -/

/-- The addresses that updates have inserted, oldest first: `arp_update` has returned 0. -/
def inserted (past : List (Call × Int)) : List IpAddr :=
  past.filterMap fun
    | (.update ip _, 0) => some ip
    | _ => none

/-- The MAC address of the last update of an address. -/
def lastMac (ip : IpAddr) (past : List (Call × Int)) : Option MacAddr :=
  past.reverse.findSome? fun
    | (.update ip' mac, _) => if ip' = ip then some mac else none
    | _ => none

/-- The addresses of the last insertions, as many as there are slots. -/
def recent (past : List (Call × Int)) : List IpAddr := (inserted past).reverse.take arpCacheSize

/-- The address of an update is not zero. -/
def Call.NonZero : Call → Prop
  | .update ip _ => ip ≠ ⟨0, 0, 0, 0⟩
  | .check _ _ => True

theorem inserted_append (past : List (Call × Int)) (e : Call × Int) :
    inserted (past ++ [e]) = inserted past ++ inserted [e] := List.filterMap_append

theorem lastMac_append_update (past : List (Call × Int)) (ip ip' : IpAddr) (mac : MacAddr) (n : Int) :
    lastMac ip (past ++ [(.update ip' mac, n)]) = if ip' = ip then some mac else lastMac ip past := by
  rw [lastMac, List.reverse_append, List.reverse_singleton, List.singleton_append, List.findSome?_cons]
  by_cases h : ip' = ip <;> simp [h, lastMac]

theorem lastMac_append_check (past : List (Call × Int)) (ip ip' : IpAddr) (mac : MacAddr) (n : Int) :
    lastMac ip (past ++ [(.check ip' mac, n)]) = lastMac ip past := by
  rw [lastMac, List.reverse_append, List.reverse_singleton, List.singleton_append, List.findSome?_cons]
  rfl

/-- What a cache is after these calls: the insertion number `m` is in slot `m % 16` unless sixteen or more have
come after it; a slot that has not been used yet has no address. -/
structure Knows (cache : ArpCache) (past : List (Call × Int)) : Prop where
  index : cache.index = (inserted past).length % arpCacheSize
  slot : ∀ m (hm : m < (inserted past).length), (inserted past).length ≤ m + arpCacheSize →
    (cache.entries (m % arpCacheSize)).ip = (inserted past)[m] ∧
      lastMac (inserted past)[m] past = some (cache.entries (m % arpCacheSize)).mac
  unused : ∀ i, (inserted past).length ≤ i → i < arpCacheSize → (cache.entries i).ip = ⟨0, 0, 0, 0⟩
  nonZero : ∀ ip ∈ inserted past, ip ≠ ⟨0, 0, 0, 0⟩
  /-- Two slots with the same address are one. -/
  distinct : ∀ i k, i < arpCacheSize → k < arpCacheSize → (cache.entries i).ip = (cache.entries k).ip →
    (cache.entries i).ip ≠ ⟨0, 0, 0, 0⟩ → i = k

theorem knows_initial : Knows initial [] where
  index := rfl
  slot m hm := absurd hm (Nat.not_lt_zero m)
  unused _ _ _ := rfl
  nonZero := nofun
  distinct _ _ _ _ _ h := absurd rfl h

/-- A slot has not been used yet, or it holds one of the last insertions. -/
theorem slot_cases (n : Nat) (hi : i < arpCacheSize) :
    n ≤ i ∨ ∃ m < n, n ≤ m + arpCacheSize ∧ m % arpCacheSize = i := by
  unfold arpCacheSize at hi ⊢
  rcases Nat.lt_or_ge i n with hlt | hge
  · exact Or.inr ⟨i + 16 * ((n - 1 - i) / 16), by omega, by omega, by omega⟩
  · exact Or.inl hge

/-- An address in a slot is that of one of the last insertions. -/
theorem Knows.mem_recent_iff (h : Knows cache past) (hip : ip ≠ ⟨0, 0, 0, 0⟩) :
    ip ∈ recent past ↔ ∃ k < arpCacheSize, (cache.entries k).ip = ip := by
  rw [recent, List.take_reverse, List.mem_reverse, List.mem_drop_iff_getElem]
  constructor
  · rintro ⟨j, hj, rfl⟩
    refine ⟨(j + ((inserted past).length - arpCacheSize)) % arpCacheSize, Nat.mod_lt _ (by decide), ?_⟩
    rw [(h.slot _ hj (by omega)).1]
    congr 1
    exact Nat.add_comm _ _
  · rintro ⟨k, hk, hslot⟩
    rcases slot_cases (inserted past).length hk with hunused | ⟨m, hm, hrecent, rfl⟩
    · exact absurd (hslot.symm.trans (h.unused k hunused hk)) hip
    · refine ⟨m - ((inserted past).length - arpCacheSize), by omega, ?_⟩
      rw [← hslot, (h.slot m hm hrecent).1]
      congr 1
      omega

/-- An update inserts an address exactly if it is not that of one of the last insertions. -/
theorem Knows.arpUpdate_inserts_iff (h : Knows cache past) (hip : ip ≠ ⟨0, 0, 0, 0⟩) (mac : MacAddr) :
    (cache.arpUpdate ip mac).2 = 0 ↔ ip ∉ recent past := by
  rw [h.mem_recent_iff hip, arpUpdate]
  rcases findEntry_spec cache ip arpCacheSize 0 with ⟨k, -, hk, hfind, hslot⟩ | ⟨hfind, hnone⟩
  · rw [Nat.zero_add] at hk
    rw [hfind, if_pos hk]
    exact iff_of_false Int.one_ne_zero fun hnot => hnot ⟨k, hk, hslot⟩
  · rw [hfind, if_neg (by decide)]
    exact iff_of_true rfl fun ⟨k, hk, hslot⟩ => hnone k (Nat.zero_le k) (by omega) hslot

/-! ## What a call does to the history -/

/-- An update of an address that is in a slot. -/
theorem Knows.update_known (h : Knows cache past) (hk : k < arpCacheSize) (hslot : (cache.entries k).ip = ip)
    (hip : ip ≠ ⟨0, 0, 0, 0⟩) :
    Knows { cache with entries := fun j => if j = k then ⟨(cache.entries k).ip, mac⟩ else cache.entries j }
      (past ++ [(.update ip mac, 1)]) := by
  have hins : inserted (past ++ [(.update ip mac, 1)]) = inserted past := by
    rw [inserted_append]
    exact List.append_nil _
  have hsame : ∀ j, (if j = k then (⟨(cache.entries k).ip, mac⟩ : ArpEntry) else cache.entries j).ip
      = (cache.entries j).ip := by
    intro j
    by_cases hj : j = k
    · rw [if_pos hj, hj]
    · rw [if_neg hj]
  refine ⟨by rw [hins]; exact h.index, ?_, ?_, ?_, ?_⟩
  · rw [hins]
    intro m hm hrecent
    obtain ⟨haddr, hmac⟩ := h.slot m hm hrecent
    refine ⟨(hsame _).trans haddr, ?_⟩
    rw [lastMac_append_update]
    by_cases heq : ip = (inserted past)[m]
    · have hslots : m % arpCacheSize = k := by
        refine h.distinct _ _ (Nat.mod_lt _ (by decide)) hk ?_ ?_
        · rw [haddr, hslot, heq]
        · rw [haddr, ← heq]
          exact hip
      rw [if_pos heq]
      dsimp only
      rw [if_pos hslots]
    · have hslots : m % arpCacheSize ≠ k := fun hm' => heq (by rw [← hslot, ← hm', haddr])
      rw [if_neg heq, hmac]
      dsimp only
      rw [if_neg hslots]
  · rw [hins]
    intro i hunused hi
    exact (hsame i).trans (h.unused i hunused hi)
  · rw [hins]
    exact h.nonZero
  · intro i j hi hj heq hne
    dsimp only at heq hne
    rw [hsame, hsame] at heq
    rw [hsame] at hne
    exact h.distinct i j hi hj heq hne

/-- An update of an address that is in no slot: it takes the slot that has been filled longest. -/
theorem Knows.update_new (h : Knows cache past) (hnone : ∀ k < arpCacheSize, (cache.entries k).ip ≠ ip)
    (hip : ip ≠ ⟨0, 0, 0, 0⟩) :
    Knows { entries := fun j => if j = cache.index then ⟨ip, mac⟩ else cache.entries j
            index := (cache.index + 1) &&& (arpCacheSize - 1) }
      (past ++ [(.update ip mac, 0)]) := by
  have hins : inserted (past ++ [(.update ip mac, 0)]) = inserted past ++ [ip] := by
    rw [inserted_append]
    rfl
  have hlen : (inserted past ++ [ip]).length = (inserted past).length + 1 := List.length_append
  have hindex := h.index
  have hlt : cache.index < arpCacheSize := by
    rw [hindex]
    exact Nat.mod_lt _ (by decide)
  refine ⟨?_, ?_, ?_, ?_, ?_⟩
  · rw [hins, hlen]
    dsimp only
    rw [hindex, show arpCacheSize - 1 = 2 ^ 4 - 1 from rfl, Nat.and_two_pow_sub_one_eq_mod]
    exact Nat.mod_add_mod _ _ _
  · rw [hins]
    intro m hm hrecent
    rw [hlen] at hm hrecent
    rw [lastMac_append_update]
    by_cases hlast : m = (inserted past).length
    · have hget : (inserted past ++ [ip])[m] = ip := by
        subst hlast
        exact List.getElem_concat_length rfl _
      rw [hget, if_pos rfl, hlast, ← hindex]
      dsimp only
      rw [if_pos rfl]
      exact ⟨rfl, rfl⟩
    · have hm' : m < (inserted past).length := by omega
      have hget : (inserted past ++ [ip])[m] = (inserted past)[m] := List.getElem_append_left hm'
      obtain ⟨haddr, hmac⟩ := h.slot m hm' (by omega)
      have hne : ip ≠ (inserted past)[m] := by
        rw [← haddr]
        exact (hnone _ (Nat.mod_lt _ (by decide))).symm
      -- fewer than sixteen insertions apart, the slots differ
      have hslots : m % arpCacheSize ≠ cache.index := by
        rw [hindex]
        unfold arpCacheSize at hrecent ⊢
        omega
      rw [hget, if_neg hne]
      dsimp only
      rw [if_neg hslots]
      exact ⟨haddr, hmac⟩
  · rw [hins, hlen]
    intro i hunused hi
    have hslots : i ≠ cache.index := by
      rw [hindex]
      unfold arpCacheSize at hi ⊢
      omega
    dsimp only
    rw [if_neg hslots]
    exact h.unused i (by omega) hi
  · rw [hins]
    intro a ha
    rcases List.mem_append.mp ha with hold | hnew
    · exact h.nonZero a hold
    · rw [List.mem_singleton.mp hnew]
      exact hip
  · intro i j hi hj heq hne
    dsimp only at heq hne
    by_cases hi' : i = cache.index
    · by_cases hj' : j = cache.index
      · rw [hi', hj']
      · rw [if_pos hi', if_neg hj'] at heq
        exact absurd heq.symm (hnone j hj)
    · rw [if_neg hi'] at heq hne
      by_cases hj' : j = cache.index
      · rw [if_pos hj'] at heq
        exact absurd heq (hnone i hi)
      · rw [if_neg hj'] at heq
        exact h.distinct i j hi hj heq hne

/-- What one call preserves. -/
theorem Knows.step (h : Knows cache past) (hcall : call.NonZero) :
    Knows (cache.step call).1 (past ++ [(call, (cache.step call).2)]) := by
  cases call with
  | update ip mac =>
      have hip : ip ≠ ⟨0, 0, 0, 0⟩ := hcall
      rw [ArpCache.step, arpUpdate]
      rcases findEntry_spec cache ip arpCacheSize 0 with ⟨k, -, hk, hfind, hslot⟩ | ⟨hfind, hnone⟩
      · rw [Nat.zero_add] at hk
        rw [hfind, if_pos hk]
        exact h.update_known hk hslot hip
      · rw [hfind, if_neg (by decide)]
        exact h.update_new (fun k hk => hnone k (Nat.zero_le k) (by omega)) hip
  | check ip mac =>
      have hins : inserted (past ++ [(.check ip mac, (cache.arpCheck ip mac).1)]) = inserted past := by
        rw [inserted_append]
        exact List.append_nil _
      rw [ArpCache.step]
      refine ⟨by rw [hins]; exact h.index, ?_, ?_, ?_, h.distinct⟩
      · rw [hins]
        intro m hm hrecent
        rw [lastMac_append_check]
        exact h.slot m hm hrecent
      · rw [hins]
        exact h.unused
      · rw [hins]
        exact h.nonZero

/-- What calls in any order preserve. -/
theorem Knows.run {calls : List Call} (h : Knows cache past) (hcalls : ∀ call ∈ calls, call.NonZero) :
    Knows (cache.run calls).1 (past ++ (cache.run calls).2) := by
  induction calls generalizing cache past with
  | nil =>
      rw [ArpCache.run, List.append_nil]
      exact h
  | cons call calls ih =>
      have hstep := h.step (hcalls call List.mem_cons_self)
      have hrest := ih hstep fun c hc => hcalls c (List.mem_cons_of_mem _ hc)
      rw [List.append_assoc, List.singleton_append] at hrest
      exact hrest

/-- Checks leave the cache as it is: it is what the updates alone make of it. -/
theorem run_updates (cache : ArpCache) (calls : List Call) :
    (cache.run calls).1 = (cache.run (calls.filter fun call => call matches .update _ _)).1 := by
  induction calls generalizing cache with
  | nil => rfl
  | cons call calls ih =>
      cases call with
      | update ip mac =>
          rw [List.filter_cons_of_pos rfl, ArpCache.run, ArpCache.run]
          exact ih _
      | check ip mac =>
          rw [List.filter_cons_of_neg (by simp), ArpCache.run]
          exact ih _

/-- After any updates and checks the cache knows the addresses of the last sixteen insertions, each with the MAC
address of its last update, and no other; checks change nothing, and an update inserts an address exactly if it is
not known. -/
theorem arpCache_knows_last (calls : List Call) (hcalls : ∀ call ∈ calls, call.NonZero) :
    (∀ ip mac, ip ≠ ⟨0, 0, 0, 0⟩ →
      (((initial.run calls).1.arpCheck ip mac).1 = 1 ↔ ip ∈ recent (initial.run calls).2) ∧
        (((initial.run calls).1.arpCheck ip mac).1 = 1 →
          lastMac ip (initial.run calls).2 = some ((initial.run calls).1.arpCheck ip mac).2)) ∧
      (∀ i k, i < arpCacheSize → k < arpCacheSize →
        ((initial.run calls).1.entries i).ip = ((initial.run calls).1.entries k).ip →
        ((initial.run calls).1.entries i).ip ≠ ⟨0, 0, 0, 0⟩ → i = k) ∧
      (initial.run calls).1 = (initial.run (calls.filter fun call => call matches .update _ _)).1 ∧
      (∀ ip mac, ip ≠ ⟨0, 0, 0, 0⟩ →
        (((initial.run calls).1.arpUpdate ip mac).2 = 0 ↔ ip ∉ recent (initial.run calls).2)) := by
  have hknows : Knows (initial.run calls).1 (initial.run calls).2 := knows_initial.run hcalls
  refine ⟨fun ip mac hip => ?_, hknows.distinct, run_updates initial calls,
    fun ip mac hip => hknows.arpUpdate_inserts_iff hip mac⟩
  rw [hknows.mem_recent_iff hip, arpCheck]
  rcases findEntry_spec (initial.run calls).1 ip arpCacheSize 0 with ⟨k, -, hk, hfind, hslot⟩ | ⟨hfind, hnone⟩
  · rw [Nat.zero_add] at hk
    rw [hfind, if_pos hk]
    refine ⟨⟨fun _ => ⟨k, hk, hslot⟩, fun _ => rfl⟩, fun _ => ?_⟩
    rcases slot_cases (inserted (initial.run calls).2).length hk with hunused | ⟨m, hm, hrecent, rfl⟩
    · exact absurd (hslot.symm.trans (hknows.unused k hunused hk)) hip
    · obtain ⟨haddr, hmac⟩ := hknows.slot m hm hrecent
      rw [← haddr, hslot] at hmac
      exact hmac
  · rw [hfind, if_neg (by decide)]
    refine ⟨⟨fun h => absurd h Int.zero_ne_one, fun ⟨k, hk, hslot⟩ => ?_⟩, fun h => absurd h Int.zero_ne_one⟩
    exact absurd hslot (hnone k (Nat.zero_le k) (by omega))

/-- An address that is learnt, asked for and learnt again. -/
def learnt : List Call :=
  [.update ⟨10, 0, 0, 1⟩ ⟨2, 0, 0, 0, 0, 1⟩, .check ⟨10, 0, 0, 2⟩ ⟨0, 0, 0, 0, 0, 0⟩,
    .update ⟨10, 0, 0, 1⟩ ⟨2, 0, 0, 0, 0, 9⟩]

theorem arpCache_knows_last_learnt :
    (initial.run learnt).1.arpCheck ⟨10, 0, 0, 1⟩ ⟨0, 0, 0, 0, 0, 0⟩ = (1, ⟨2, 0, 0, 0, 0, 9⟩) ∧
      lastMac ⟨10, 0, 0, 1⟩ (initial.run learnt).2 = some ⟨2, 0, 0, 0, 0, 9⟩ := by
  have hcalls : ∀ call ∈ learnt, call.NonZero := by
    intro call hcall
    simp only [learnt, List.mem_cons, List.not_mem_nil, or_false] at hcall
    rcases hcall with rfl | rfl | rfl
    · exact (by decide : (⟨10, 0, 0, 1⟩ : IpAddr) ≠ ⟨0, 0, 0, 0⟩)
    · trivial
    · exact (by decide : (⟨10, 0, 0, 1⟩ : IpAddr) ≠ ⟨0, 0, 0, 0⟩)
  have hcheck : (initial.run learnt).1.arpCheck ⟨10, 0, 0, 1⟩ ⟨0, 0, 0, 0, 0, 0⟩ = (1, ⟨2, 0, 0, 0, 0, 9⟩) := by
    decide
  refine ⟨hcheck, ?_⟩
  have hmac := ((arpCache_knows_last learnt hcalls).1 ⟨10, 0, 0, 1⟩ ⟨0, 0, 0, 0, 0, 0⟩ (by decide)).2 (by rw [hcheck])
  rw [hcheck] at hmac
  exact hmac

end ArpCache

end UcxArinc
