import Dynex.Lib.MultiIndex

/-!
# Peer lists

`PeerlistManager` of `P2p/PeerListManager.cpp`: a white list of peers this node has talked to and
a gray list of peers it has heard of, each a `peers_indexed` container, unique by address and
ordered by `last_seen` (`MultiIndex`). A peer goes into the white list with
`append_with_peer_white`, which also takes it out of the gray list; into the gray list with
`append_with_peer_gray`, unless it is white; and the peers another node sends go into the gray
list with `merge_peerlist`. A list that grows past its limit loses its earliest peers.

Every operation returns `true` but when an allocation throws, which the model leaves out; the
model returns the manager after the operation. `set_peer_just_seen` reads the clock with
`time(NULL)`, which is the argument `now`. The manager is built empty and `init` sets
`m_allow_local_ip`; nothing else changes that flag.
-/

set_option autoImplicit false

namespace Dynex

def P2P_LOCAL_WHITE_PEERLIST_LIMIT : Nat := 1000
def P2P_LOCAL_GRAY_PEERLIST_LIMIT : Nat := 5000

abbrev PeerIdType := UInt64

structure NetworkAddress where
  ip : UInt32
  port : UInt32
  deriving DecidableEq, Repr

structure PeerlistEntry where
  adr : NetworkAddress
  id : PeerIdType
  last_seen : UInt64
  deriving DecidableEq, Repr

def hostToNetwork (n : UInt32) : UInt32 :=
  (n <<< (24 : UInt32)) ||| ((n &&& (0xff00 : UInt32)) <<< (8 : UInt32)) |||
    ((n &&& (0xff0000 : UInt32)) >>> (8 : UInt32)) ||| (n >>> (24 : UInt32))

def networkToHost (n : UInt32) : UInt32 := hostToNetwork n

namespace Ipv4Address

def isLoopback (value : UInt32) : Bool :=
  (value &&& (0xff000000 : UInt32)) == (127 : UInt32) <<< (24 : UInt32)

/-- `isPrivate()`: `10.0.0.0/8`, `172.16.0.0/12` and `192.168.0.0/16`. -/
def isPrivate (value : UInt32) : Bool :=
  (value &&& (0xff000000 : UInt32)) == (10 : UInt32) <<< (24 : UInt32) ||
    (value &&& (0xfff00000 : UInt32)) ==
      (((172 : UInt32) <<< (24 : UInt32)) ||| ((16 : UInt32) <<< (16 : UInt32))) ||
    (value &&& (0xffff0000 : UInt32)) ==
      (((192 : UInt32) <<< (24 : UInt32)) ||| ((168 : UInt32) <<< (16 : UInt32)))

end Ipv4Address

structure PeerlistManager where
  m_allow_local_ip : Bool
  m_peers_gray : List PeerlistEntry
  m_peers_white : List PeerlistEntry

namespace PeerlistManager

def empty (allow_local_ip : Bool) : PeerlistManager :=
  { m_allow_local_ip := allow_local_ip, m_peers_gray := [], m_peers_white := [] }

/-- `is_ip_allowed(ip)`: never a loopback address, and a private one only with
`m_allow_local_ip`. -/
def is_ip_allowed (self : PeerlistManager) (ip : UInt32) : Bool :=
  let addr := networkToHost ip
  if Ipv4Address.isLoopback addr then false
  else if !self.m_allow_local_ip && Ipv4Address.isPrivate addr then false
  else true

def findPeer (adr : NetworkAddress) (peers : List PeerlistEntry) : Option Nat :=
  MultiIndex.find PeerlistEntry.adr adr peers

def insertPeer (ple : PeerlistEntry) (peers : List PeerlistEntry) : List PeerlistEntry :=
  MultiIndex.insert PeerlistEntry.adr PeerlistEntry.last_seen ple peers

def replacePeer (index : Nat) (ple : PeerlistEntry) (peers : List PeerlistEntry) :
    List PeerlistEntry :=
  MultiIndex.replace PeerlistEntry.last_seen index ple peers

def trimPeers (maxSize : Nat) (peers : List PeerlistEntry) : List PeerlistEntry :=
  MultiIndex.trim maxSize peers

def trim_white_peerlist (self : PeerlistManager) : PeerlistManager :=
  { self with m_peers_white := trimPeers P2P_LOCAL_WHITE_PEERLIST_LIMIT self.m_peers_white }

def trim_gray_peerlist (self : PeerlistManager) : PeerlistManager :=
  { self with m_peers_gray := trimPeers P2P_LOCAL_GRAY_PEERLIST_LIMIT self.m_peers_gray }

/-- `append_with_peer_white(ple)`: the record goes into the white list, new or in place of the
one with its address, and leaves the gray list. -/
def append_with_peer_white (self : PeerlistManager) (ple : PeerlistEntry) : PeerlistManager :=
  if !self.is_ip_allowed ple.adr.ip then self
  else
    let self := match findPeer ple.adr self.m_peers_white with
      | none => trim_white_peerlist { self with m_peers_white := insertPeer ple self.m_peers_white }
      | some index => { self with m_peers_white := replacePeer index ple self.m_peers_white }
    match findPeer ple.adr self.m_peers_gray with
    | some index => { self with m_peers_gray := self.m_peers_gray.eraseIdx index }
    | none => self

/-- `append_with_peer_gray(ple)`: nothing for a white peer; otherwise the record goes into the
gray list, new or in place of the one with its address. -/
def append_with_peer_gray (self : PeerlistManager) (ple : PeerlistEntry) : PeerlistManager :=
  if !self.is_ip_allowed ple.adr.ip then self
  else if (findPeer ple.adr self.m_peers_white).isSome then self
  else
    match findPeer ple.adr self.m_peers_gray with
    | none => trim_gray_peerlist { self with m_peers_gray := insertPeer ple self.m_peers_gray }
    | some index => { self with m_peers_gray := replacePeer index ple self.m_peers_gray }

def set_peer_just_seen (self : PeerlistManager) (peer : PeerIdType) (addr : NetworkAddress)
    (now : UInt64) : PeerlistManager :=
  self.append_with_peer_white { adr := addr, id := peer, last_seen := now }

def merge_peerlist (self : PeerlistManager) (outer_bs : List PeerlistEntry) : PeerlistManager :=
  trim_gray_peerlist (outer_bs.foldl append_with_peer_gray self)

def get_peerlist_head (self : PeerlistManager) (bs_head : List PeerlistEntry) (depth : UInt32) :
    List PeerlistEntry :=
  go self.m_peers_white.reverse bs_head 0
where
  go : List PeerlistEntry → List PeerlistEntry → UInt32 → List PeerlistEntry
    | [], bs_head, _ => bs_head
    | vl :: rest, bs_head, cnt =>
        if vl.last_seen = 0 then go rest bs_head cnt
        else if cnt > depth then bs_head ++ [vl]
        else go rest (bs_head ++ [vl]) (cnt + 1)

/-- The calls that change the lists. -/
inductive Operation where
  | appendWhite (ple : PeerlistEntry)
  | appendGray (ple : PeerlistEntry)
  | justSeen (peer : PeerIdType) (addr : NetworkAddress) (now : UInt64)
  | merge (outer_bs : List PeerlistEntry)

def apply (self : PeerlistManager) : Operation → PeerlistManager
  | .appendWhite ple => self.append_with_peer_white ple
  | .appendGray ple => self.append_with_peer_gray ple
  | .justSeen peer addr now => self.set_peer_just_seen peer addr now
  | .merge outer_bs => self.merge_peerlist outer_bs

def run (self : PeerlistManager) (operations : List Operation) : PeerlistManager :=
  operations.foldl apply self

end PeerlistManager

end Dynex
