import Dynex.P2p.PeerListManager

/-!
# The peer lists stay apart, bounded, filtered and unique

Both `append_with_peer_*` functions put a record into a list the same way: in place of the record
with its address, or new and trimmed to the list's limit (`putPeer`). What that does to the set of
records is all the proofs use: `MultiIndex` gives a permutation of the record and a sublist of the
old ones. The white list is kept apart from the gray one because `append_with_peer_white` erases
the gray record with the address, which is the only one since the gray list is unique by address,
and `append_with_peer_gray` does nothing for a white address. `Valid` says all of it; it holds of
the empty manager and every call keeps it, so it holds after any calls.
-/

set_option autoImplicit false

namespace Dynex.PeerlistManager

open MultiIndex

/-- What the manager keeps of one list: at most `limit` records, each with an address `allows`
passes, and no address twice. -/
structure ListValid (allows : UInt32 → Bool) (limit : Nat) (peers : List PeerlistEntry) : Prop where
  bounded : peers.length ≤ limit
  allowed : ∀ entry ∈ peers, allows entry.adr.ip = true
  unique : (peers.map PeerlistEntry.adr).Nodup

/-- Where `append_with_peer_white` and `append_with_peer_gray` put a record: in place of the one
with its address, or new and then trimmed to `limit`. -/
def putPeer (limit : Nat) (ple : PeerlistEntry) (peers : List PeerlistEntry) : List PeerlistEntry :=
  match findPeer ple.adr peers with
  | none => trimPeers limit (insertPeer ple peers)
  | some index => replacePeer index ple peers

/-- What `append_with_peer_white` leaves of the gray list: the record with the address erased. -/
def dropPeer (adr : NetworkAddress) (peers : List PeerlistEntry) : List PeerlistEntry :=
  match findPeer adr peers with
  | some index => peers.eraseIdx index
  | none => peers

section Lists

variable {allows : UInt32 → Bool} {limit : Nat} {ple : PeerlistEntry} {peers : List PeerlistEntry}

theorem ListValid.sublist {kept : List PeerlistEntry} (valid : ListValid allows limit peers)
    (sub : kept.Sublist peers) : ListValid allows limit kept where
  bounded := sub.length_le.trans valid.bounded
  allowed entry member := valid.allowed entry (sub.subset member)
  unique := (sub.map _).nodup valid.unique

theorem allowed_unique_of_perm {put rest : List PeerlistEntry} (valid : ListValid allows limit peers)
    (perm : put.Perm (ple :: rest)) (sub : rest.Sublist peers) (allowed : allows ple.adr.ip = true)
    (fresh : ∀ entry ∈ rest, entry.adr ≠ ple.adr) :
    (∀ entry ∈ put, allows entry.adr.ip = true) ∧ (put.map PeerlistEntry.adr).Nodup := by
  constructor
  · intro entry member
    rcases List.mem_cons.mp (perm.subset member) with rfl | kept
    · exact allowed
    · exact valid.allowed entry (sub.subset kept)
  · rw [(perm.map _).nodup_iff, List.map_cons, List.nodup_cons]
    refine ⟨fun member => ?_, (sub.map _).nodup valid.unique⟩
    obtain ⟨entry, kept, same⟩ := List.mem_map.mp member
    exact fresh entry kept same

theorem putPeer_valid (valid : ListValid allows limit peers) (allowed : allows ple.adr.ip = true) :
    ListValid allows limit (putPeer limit ple peers) := by
  unfold putPeer
  split
  next absent =>
    have fresh := find_eq_none absent
    have perm : (insertPeer ple peers).Perm (ple :: peers) := by
      rw [insertPeer, insert_of_fresh fresh]
      exact link_perm ple peers
    obtain ⟨allowedAll, unique⟩ :=
      allowed_unique_of_perm valid perm (List.Sublist.refl _) allowed fresh
    have sub := trim_sublist limit (insertPeer ple peers)
    exact ⟨length_trim_le _ _, fun entry member => allowedAll entry (sub.subset member),
      (sub.map _).nodup unique⟩
  next index found =>
    obtain ⟨bound, same⟩ := find_eq_some found
    have perm : (replacePeer index ple peers).Perm (ple :: peers.eraseIdx index) :=
      replace_perm index ple peers
    have fresh : ∀ entry ∈ peers.eraseIdx index, entry.adr ≠ ple.adr := by
      rw [← same]
      exact key_ne_of_mem_eraseIdx valid.unique bound
    obtain ⟨allowedAll, unique⟩ :=
      allowed_unique_of_perm valid perm (List.eraseIdx_sublist _ _) allowed fresh
    refine ⟨?_, allowedAll, unique⟩
    have bounded := valid.bounded
    rw [perm.length_eq, List.length_cons, List.length_eraseIdx_of_lt bound]
    omega

theorem mem_putPeer {entry : PeerlistEntry} (member : entry ∈ putPeer limit ple peers) :
    entry = ple ∨ entry ∈ peers := by
  unfold putPeer at member
  split at member
  next absent =>
    have perm : (insertPeer ple peers).Perm (ple :: peers) := by
      rw [insertPeer, insert_of_fresh (find_eq_none absent)]
      exact link_perm ple peers
    exact List.mem_cons.mp (perm.subset ((trim_sublist limit _).subset member))
  next index found =>
    have perm : (replacePeer index ple peers).Perm (ple :: peers.eraseIdx index) :=
      replace_perm index ple peers
    rcases List.mem_cons.mp (perm.subset member) with same | kept
    · exact Or.inl same
    · exact Or.inr ((List.eraseIdx_sublist _ _).subset kept)

theorem dropPeer_sublist (adr : NetworkAddress) (peers : List PeerlistEntry) :
    (dropPeer adr peers).Sublist peers := by
  unfold dropPeer
  split
  · exact List.eraseIdx_sublist _ _
  · exact List.Sublist.refl _

theorem adr_ne_of_mem_dropPeer {adr : NetworkAddress} (unique : (peers.map PeerlistEntry.adr).Nodup) :
    ∀ entry ∈ dropPeer adr peers, entry.adr ≠ adr := by
  unfold dropPeer
  split
  next index found =>
    obtain ⟨bound, same⟩ := find_eq_some found
    rw [← same]
    exact key_ne_of_mem_eraseIdx unique bound
  next absent => exact find_eq_none absent

end Lists

/-- What the manager keeps: both lists valid for its own `is_ip_allowed` and their limits, and no
address in both. -/
structure Valid (manager : PeerlistManager) : Prop where
  white : ListValid manager.is_ip_allowed P2P_LOCAL_WHITE_PEERLIST_LIMIT manager.m_peers_white
  gray : ListValid manager.is_ip_allowed P2P_LOCAL_GRAY_PEERLIST_LIMIT manager.m_peers_gray
  disjoint : ∀ white ∈ manager.m_peers_white, ∀ gray ∈ manager.m_peers_gray, white.adr ≠ gray.adr

section Steps

variable {self : PeerlistManager} {ple : PeerlistEntry}

theorem append_with_peer_white_of_not_allowed (refused : ¬self.is_ip_allowed ple.adr.ip = true) :
    self.append_with_peer_white ple = self := by
  simp [append_with_peer_white, refused]

theorem append_with_peer_white_of_allowed (allowed : self.is_ip_allowed ple.adr.ip = true) :
    self.append_with_peer_white ple =
      { self with m_peers_white := putPeer P2P_LOCAL_WHITE_PEERLIST_LIMIT ple self.m_peers_white,
                  m_peers_gray := dropPeer ple.adr self.m_peers_gray } := by
  cases white : findPeer ple.adr self.m_peers_white <;>
    cases gray : findPeer ple.adr self.m_peers_gray <;>
    simp [append_with_peer_white, putPeer, dropPeer, trim_white_peerlist, allowed, white, gray]

theorem append_with_peer_gray_of_not_allowed (refused : ¬self.is_ip_allowed ple.adr.ip = true) :
    self.append_with_peer_gray ple = self := by
  simp [append_with_peer_gray, refused]

theorem append_with_peer_gray_of_white {index : Nat}
    (white : findPeer ple.adr self.m_peers_white = some index) :
    self.append_with_peer_gray ple = self := by
  simp [append_with_peer_gray, white]

theorem append_with_peer_gray_of_allowed (allowed : self.is_ip_allowed ple.adr.ip = true)
    (notWhite : findPeer ple.adr self.m_peers_white = none) :
    self.append_with_peer_gray ple =
      { self with m_peers_gray := putPeer P2P_LOCAL_GRAY_PEERLIST_LIMIT ple self.m_peers_gray } := by
  cases gray : findPeer ple.adr self.m_peers_gray <;>
    simp [append_with_peer_gray, putPeer, trim_gray_peerlist, allowed, notWhite, gray]

theorem Valid.append_with_peer_white (valid : self.Valid) (ple : PeerlistEntry) :
    (self.append_with_peer_white ple).Valid := by
  by_cases allowed : self.is_ip_allowed ple.adr.ip = true
  · rw [append_with_peer_white_of_allowed allowed]
    refine ⟨putPeer_valid valid.white allowed, valid.gray.sublist (dropPeer_sublist _ _), ?_⟩
    intro white put gray kept
    rcases mem_putPeer put with rfl | old
    · exact (adr_ne_of_mem_dropPeer valid.gray.unique gray kept).symm
    · exact valid.disjoint white old gray ((dropPeer_sublist _ _).subset kept)
  · rw [append_with_peer_white_of_not_allowed allowed]
    exact valid

theorem Valid.append_with_peer_gray (valid : self.Valid) (ple : PeerlistEntry) :
    (self.append_with_peer_gray ple).Valid := by
  by_cases allowed : self.is_ip_allowed ple.adr.ip = true
  · cases notWhite : findPeer ple.adr self.m_peers_white with
    | some index =>
        rw [append_with_peer_gray_of_white notWhite]
        exact valid
    | none =>
        rw [append_with_peer_gray_of_allowed allowed notWhite]
        refine ⟨valid.white, putPeer_valid valid.gray allowed, ?_⟩
        intro white member gray put
        rcases mem_putPeer put with rfl | old
        · exact find_eq_none notWhite white member
        · exact valid.disjoint white member gray old
  · rw [append_with_peer_gray_of_not_allowed allowed]
    exact valid

theorem Valid.set_peer_just_seen (valid : self.Valid) (peer : PeerIdType) (addr : NetworkAddress)
    (now : UInt64) : (self.set_peer_just_seen peer addr now).Valid :=
  valid.append_with_peer_white _

theorem Valid.trim_gray_peerlist (valid : self.Valid) : self.trim_gray_peerlist.Valid := by
  have sub := trim_sublist P2P_LOCAL_GRAY_PEERLIST_LIMIT self.m_peers_gray
  exact ⟨valid.white, valid.gray.sublist sub,
    fun white member gray kept => valid.disjoint white member gray (sub.subset kept)⟩

theorem Valid.foldl_append_with_peer_gray (valid : self.Valid) (outer_bs : List PeerlistEntry) :
    (outer_bs.foldl PeerlistManager.append_with_peer_gray self).Valid := by
  induction outer_bs generalizing self with
  | nil => exact valid
  | cons ple rest ih => exact ih (valid.append_with_peer_gray ple)

theorem Valid.merge_peerlist (valid : self.Valid) (outer_bs : List PeerlistEntry) :
    (self.merge_peerlist outer_bs).Valid :=
  (valid.foldl_append_with_peer_gray outer_bs).trim_gray_peerlist

theorem Valid.apply (valid : self.Valid) : ∀ operation, (self.apply operation).Valid
  | .appendWhite ple => valid.append_with_peer_white ple
  | .appendGray ple => valid.append_with_peer_gray ple
  | .justSeen peer addr now => valid.set_peer_just_seen peer addr now
  | .merge outer_bs => valid.merge_peerlist outer_bs

theorem Valid.run (valid : self.Valid) (operations : List Operation) :
    (self.run operations).Valid := by
  induction operations generalizing self with
  | nil => exact valid
  | cons operation rest ih => exact ih (valid.apply operation)

end Steps

theorem valid_empty (allow_local_ip : Bool) : (empty allow_local_ip).Valid where
  white := ⟨Nat.zero_le _, nofun, List.nodup_nil⟩
  gray := ⟨Nat.zero_le _, nofun, List.nodup_nil⟩
  disjoint := nofun

/-- From the empty manager, after any calls, no address is in both lists, each list is within
its limit and unique by address, and every stored address passes `is_ip_allowed`. -/
theorem peer_lists_disjoint_bounded_filtered (allow_local_ip : Bool) (operations : List Operation) :
    let final := (empty allow_local_ip).run operations
    (∀ white ∈ final.m_peers_white, ∀ gray ∈ final.m_peers_gray, white.adr ≠ gray.adr) ∧
      final.m_peers_white.length ≤ P2P_LOCAL_WHITE_PEERLIST_LIMIT ∧
      final.m_peers_gray.length ≤ P2P_LOCAL_GRAY_PEERLIST_LIMIT ∧
      (∀ entry ∈ final.m_peers_white ++ final.m_peers_gray, final.is_ip_allowed entry.adr.ip = true) ∧
      (final.m_peers_white.map PeerlistEntry.adr).Nodup ∧
      (final.m_peers_gray.map PeerlistEntry.adr).Nodup := by
  intro final
  have valid : final.Valid := (valid_empty allow_local_ip).run operations
  refine ⟨valid.disjoint, valid.white.bounded, valid.gray.bounded, ?_, valid.white.unique,
    valid.gray.unique⟩
  intro entry member
  rcases List.mem_append.mp member with white | gray
  · exact valid.white.allowed entry white
  · exact valid.gray.allowed entry gray

/-! ## The time order

Each list is its time index only while it stays in time order; every call keeps both lists so. -/

/-- Both lists in the order of their time index. -/
structure TimeOrdered (manager : PeerlistManager) : Prop where
  white : Ordered PeerlistEntry.last_seen manager.m_peers_white
  gray : Ordered PeerlistEntry.last_seen manager.m_peers_gray

theorem uint64_timeOrder : TimeOrder UInt64 where
  asymm := UInt64.lt_asymm
  trans := UInt64.lt_trans
  not_lt_trans := by
    intro a b c
    simp only [UInt64.lt_iff_toNat_lt]
    omega

theorem putPeer_ordered {limit : Nat} {ple : PeerlistEntry} {peers : List PeerlistEntry}
    (ordered : Ordered PeerlistEntry.last_seen peers) :
    Ordered PeerlistEntry.last_seen (putPeer limit ple peers) := by
  unfold putPeer
  split
  · apply trim_ordered
    unfold insertPeer MultiIndex.insert
    split
    · exact ordered
    · exact link_ordered uint64_timeOrder ordered ple
  · exact replace_ordered uint64_timeOrder ordered _ ple

section Ordering

variable {self : PeerlistManager}

theorem TimeOrdered.append_with_peer_white (ordered : self.TimeOrdered) (ple : PeerlistEntry) :
    (self.append_with_peer_white ple).TimeOrdered := by
  by_cases allowed : self.is_ip_allowed ple.adr.ip = true
  · rw [append_with_peer_white_of_allowed allowed]
    exact ⟨putPeer_ordered ordered.white, ordered.gray.sublist (dropPeer_sublist _ _)⟩
  · rw [append_with_peer_white_of_not_allowed allowed]
    exact ordered

theorem TimeOrdered.append_with_peer_gray (ordered : self.TimeOrdered) (ple : PeerlistEntry) :
    (self.append_with_peer_gray ple).TimeOrdered := by
  by_cases allowed : self.is_ip_allowed ple.adr.ip = true
  · cases notWhite : findPeer ple.adr self.m_peers_white with
    | some index =>
        rw [append_with_peer_gray_of_white notWhite]
        exact ordered
    | none =>
        rw [append_with_peer_gray_of_allowed allowed notWhite]
        exact ⟨ordered.white, putPeer_ordered ordered.gray⟩
  · rw [append_with_peer_gray_of_not_allowed allowed]
    exact ordered

theorem TimeOrdered.merge_peerlist (ordered : self.TimeOrdered) (outer_bs : List PeerlistEntry) :
    (self.merge_peerlist outer_bs).TimeOrdered := by
  have merged : (outer_bs.foldl PeerlistManager.append_with_peer_gray self).TimeOrdered := by
    induction outer_bs generalizing self with
    | nil => exact ordered
    | cons ple rest ih => exact ih (ordered.append_with_peer_gray ple)
  exact ⟨merged.white, trim_ordered merged.gray _⟩

theorem TimeOrdered.run (ordered : self.TimeOrdered) (operations : List Operation) :
    (self.run operations).TimeOrdered := by
  induction operations generalizing self with
  | nil => exact ordered
  | cons operation rest ih =>
      apply ih
      cases operation with
      | appendWhite ple => exact ordered.append_with_peer_white ple
      | appendGray ple => exact ordered.append_with_peer_gray ple
      | justSeen peer addr now => exact ordered.append_with_peer_white _
      | merge outer_bs => exact ordered.merge_peerlist outer_bs

end Ordering

theorem timeOrdered_empty (allow_local_ip : Bool) : (empty allow_local_ip).TimeOrdered :=
  ⟨List.Pairwise.nil, List.Pairwise.nil⟩

/-! ## The head of the white list sent in a handshake -/

def seenLatestFirst (peers : List PeerlistEntry) : List PeerlistEntry :=
  peers.reverse.filter fun entry => entry.last_seen != 0

theorem go_of_max (entries bs_head : List PeerlistEntry) (cnt : UInt32) :
    get_peerlist_head.go 0xFFFFFFFF entries bs_head cnt =
      bs_head ++ entries.filter fun entry => entry.last_seen != 0 := by
  induction entries generalizing bs_head cnt with
  | nil => simp [get_peerlist_head.go]
  | cons vl rest ih =>
      by_cases unseen : vl.last_seen = 0
      · rw [get_peerlist_head.go, if_pos unseen, ih]
        simp [unseen]
      · have notAbove : ¬cnt > 0xFFFFFFFF := by
          have := cnt.toNat_lt
          have largest : (0xFFFFFFFF : UInt32).toNat = 4294967295 := rfl
          simp only [gt_iff_lt, UInt32.lt_iff_toNat_lt, largest]
          omega
        rw [get_peerlist_head.go, if_neg unseen, if_neg notAbove, ih]
        simp [unseen]

/-- Below the largest `uint32_t`, the loop pushes until the counter, compared before it is
incremented, is above `depth`: `depth + 2` seen records from a counter at 0. -/
theorem go_of_lt {depth : UInt32} (below : depth.toNat + 1 < 2 ^ 32) (entries bs_head : List PeerlistEntry)
    (cnt : UInt32) (counted : cnt.toNat ≤ depth.toNat + 1) :
    get_peerlist_head.go depth entries bs_head cnt =
      bs_head ++ (entries.filter fun entry => entry.last_seen != 0).take
        (depth.toNat + 2 - cnt.toNat) := by
  induction entries generalizing bs_head cnt with
  | nil => simp [get_peerlist_head.go]
  | cons vl rest ih =>
      by_cases unseen : vl.last_seen = 0
      · rw [get_peerlist_head.go, if_pos unseen, ih bs_head cnt counted]
        simp [unseen]
      · by_cases above : cnt > depth
        · have last : depth.toNat + 2 - cnt.toNat = 1 := by
            simp only [gt_iff_lt, UInt32.lt_iff_toNat_lt] at above
            omega
          rw [get_peerlist_head.go, if_neg unseen, if_pos above, last]
          simp [unseen]
        · have next : (cnt + 1).toNat = cnt.toNat + 1 := by
            simp only [gt_iff_lt, UInt32.lt_iff_toNat_lt] at above
            rw [UInt32.toNat_add, UInt32.toNat_one, Nat.mod_eq_of_lt (by omega)]
          have more : depth.toNat + 2 - cnt.toNat = depth.toNat + 2 - (cnt + 1).toNat + 1 := by
            simp only [gt_iff_lt, UInt32.lt_iff_toNat_lt] at above
            omega
          rw [get_peerlist_head.go, if_neg unseen, if_neg above,
            ih _ _ (by simp only [gt_iff_lt, UInt32.lt_iff_toNat_lt] at above; omega), more]
          simp [unseen]

theorem get_peerlist_head_eq (self : PeerlistManager) (bs_head : List PeerlistEntry) (depth : UInt32) :
    get_peerlist_head self bs_head depth = bs_head ++
      if depth = 0xFFFFFFFF then seenLatestFirst self.m_peers_white
      else (seenLatestFirst self.m_peers_white).take (depth.toNat + 2) := by
  unfold get_peerlist_head seenLatestFirst
  split
  · next largest =>
      rw [largest, go_of_max]
  · next other =>
      have below : depth.toNat + 1 < 2 ^ 32 := by
        have fits := depth.toNat_lt
        have : depth.toNat ≠ 4294967295 := fun same => other (UInt32.toNat_inj.mp (by simpa using same))
        omega
      rw [go_of_lt below _ _ 0 (by simp), UInt32.toNat_zero, Nat.sub_zero]

theorem seenLatestFirst_pairwise {peers : List PeerlistEntry}
    (ordered : Ordered PeerlistEntry.last_seen peers) :
    (seenLatestFirst peers).Pairwise fun sooner later => ¬sooner.last_seen < later.last_seen :=
  (List.pairwise_reverse.mpr ordered).filter _

/-- `get_peerlist_head(bs_head, depth)` appends the seen white records from the latest down, but
`depth + 2` of them below the largest `uint32_t` and all of them at it, not `depth`: with more
seen records than `depth`, it appends more than `min(depth, m)`. Where the white list is in time
order, as every list the manager builds is, those records are the latest in non-increasing
order. -/
theorem peerlist_head_exceeds_depth (self : PeerlistManager) (bs_head : List PeerlistEntry)
    (depth : UInt32) :
    get_peerlist_head self bs_head depth = bs_head ++
        (if depth = 0xFFFFFFFF then seenLatestFirst self.m_peers_white
          else (seenLatestFirst self.m_peers_white).take (depth.toNat + 2)) ∧
      (depth.toNat < (seenLatestFirst self.m_peers_white).length →
        min depth.toNat (seenLatestFirst self.m_peers_white).length <
          (get_peerlist_head self bs_head depth).length - bs_head.length) ∧
      (Ordered PeerlistEntry.last_seen self.m_peers_white →
        (seenLatestFirst self.m_peers_white).Pairwise
          fun sooner later => ¬sooner.last_seen < later.last_seen) := by
  refine ⟨get_peerlist_head_eq self bs_head depth, ?_, seenLatestFirst_pairwise⟩
  intro more
  rw [get_peerlist_head_eq, List.length_append, Nat.add_sub_cancel_left]
  split
  · omega
  · rw [List.length_take]
    omega

def twoSeenPeers : PeerlistManager :=
  (empty false).run [.justSeen 1 ⟨0x01010101, 8080⟩ 100, .justSeen 2 ⟨0x02020202, 8080⟩ 200]

/-- Asked for a head of depth 0, the manager with two seen peers sends both. -/
theorem depth_zero_head_sends_two_peers :
    (seenLatestFirst twoSeenPeers.m_peers_white).length = 2 ∧
      (get_peerlist_head twoSeenPeers [] 0).length = 2 ∧
      (get_peerlist_head twoSeenPeers [] 0 = [] ++
          (if (0 : UInt32) = 0xFFFFFFFF then seenLatestFirst twoSeenPeers.m_peers_white
            else (seenLatestFirst twoSeenPeers.m_peers_white).take ((0 : UInt32).toNat + 2)) ∧
        ((0 : UInt32).toNat < (seenLatestFirst twoSeenPeers.m_peers_white).length →
          min (0 : UInt32).toNat (seenLatestFirst twoSeenPeers.m_peers_white).length <
            (get_peerlist_head twoSeenPeers [] 0).length - ([] : List PeerlistEntry).length) ∧
        (Ordered PeerlistEntry.last_seen twoSeenPeers.m_peers_white →
          (seenLatestFirst twoSeenPeers.m_peers_white).Pairwise
            fun sooner later => ¬sooner.last_seen < later.last_seen)) :=
  ⟨by decide, by decide, peerlist_head_exceeds_depth twoSeenPeers [] 0⟩

end Dynex.PeerlistManager
