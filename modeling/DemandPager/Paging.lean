/-
# Paging

What the worker does to memory. A memory `π` hands out reservations, reports
accesses to missing pages of registered ranges, takes the content of pages, and
drops it again. Every call can be refused. The calls that lay out a reservation can
also break off, when a memory does not bear the addresses; the worker then breaks
off with it.

Key definitions: `Paging`.
-/
import DemandPager.Bytes
import DemandPager.Error

namespace DemandPager

/-- A memory that the worker can manage. -/
class Paging (π : Type) where
  pageSize : π → Nat
  /-- Reserves `len` bytes and answers where. The first `headerLen` bytes can be
  written, the others only if `writable`. -/
  reserve (len headerLen : Nat) (writable : Bool) : EStateM Failure π Nat
  release (start len : Nat) : EStateM PagerError π Unit
  /-- Lets accesses to missing pages of a range be reported. -/
  register (start len : Nat) : EStateM PagerError π Unit
  /-- Takes a registration back, which lets waiting accesses go on. -/
  unregister (start len : Nat) : EStateM PagerError π Unit
  /-- Fills a registered range with zeros, so that it is never reported. -/
  zero (start len : Nat) : EStateM Failure π Unit
  /-- Gives a registered range its content, which lets waiting accesses go on. The
  answer is false if the range had content before. -/
  install (start : Nat) (content : Bytes) : EStateM PagerError π Bool
  discard (start len : Nat) : EStateM PagerError π Unit
  readResident (start len : Nat) : EStateM PagerError π Bytes
  /-- The addresses of reported accesses, and whether reports still come. -/
  readFaults : EStateM PagerError π (List Nat × Bool)
  /-- Gives the memory up: no access is reported any more. -/
  close : π → π

end DemandPager
