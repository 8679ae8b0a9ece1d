import Switchyard.Net.IntendedDestination

/-!
The bytes in which the kernel says where a connection was headed. Main statement: they are understood exactly when they
are those of the IPv4 family, and then give the address and the port that were put into them, whatever the padding is.
-/
namespace Switchyard.IntendedDestination

/-- The bytes name the IPv4 family, this address and this port. The last eight may be anything. -/
structure Carries (bytes : Vector UInt8 16) (ip : Ipv4) (port : UInt16) : Prop where
  family : bytes.get 0 = 2 ∧ bytes.get 1 = 0
  high : bytes.get 2 = (port >>> 8).toUInt8
  low : bytes.get 3 = port.toUInt8
  octets : ip = ⟨bytes.get 4, bytes.get 5, bytes.get 6, bytes.get 7⟩

variable {bytes : Vector UInt8 16} {d : IntendedDestination}

theorem family_iff (low high : UInt8) : low.toNat + 256 * high.toNat = inetFamily ↔ low = 2 ∧ high = 0 := by
  have bound : low.toNat < 256 := low.toNat_lt
  rw [← UInt8.toNat_inj, ← UInt8.toNat_inj, inetFamily]
  have two : (2 : UInt8).toNat = 2 := rfl
  have zero : (0 : UInt8).toNat = 0 := rfl
  omega

/-- A port is its two bytes, the high one first. -/
theorem port_eq_iff (high low : UInt8) (port : UInt16) :
    UInt16.ofNat (256 * high.toNat + low.toNat) = port ↔ high = (port >>> 8).toUInt8 ∧ low = port.toUInt8 := by
  have hHigh : high.toNat < 256 := high.toNat_lt
  have hLow : low.toNat < 256 := low.toNat_lt
  have hPort : port.toNat < 65536 := port.toNat_lt
  have shifted : (port >>> 8).toUInt8.toNat = port.toNat / 256 := by
    rw [UInt16.toNat_toUInt8, UInt16.toNat_shiftRight]
    change port.toNat >>> 8 % 256 = _
    rw [Nat.shiftRight_eq_div_pow]
    omega
  have cut : port.toUInt8.toNat = port.toNat % 256 := UInt16.toNat_toUInt8 port
  have whole : (UInt16.ofNat (256 * high.toNat + low.toNat)).toNat = 256 * high.toNat + low.toNat :=
    UInt16.toNat_ofNat_of_lt' (by rw [UInt16.size]; omega)
  rw [← UInt16.toNat_inj, ← UInt8.toNat_inj, ← UInt8.toNat_inj, whole, shifted, cut]
  omega

theorem ofBytes_eq_ok_iff : ofBytes bytes = .ok d ↔ Carries bytes d.ip d.port := by
  obtain ⟨ip, port⟩ := d
  simp only [ofBytes]
  split
  next family =>
    rw [Except.ok.injEq, IntendedDestination.mk.injEq, port_eq_iff]
    refine ⟨fun ⟨octets, high, low⟩ => ⟨(family_iff _ _).1 family, high, low, octets.symm⟩, fun carried => ?_⟩
    exact ⟨carried.octets.symm, carried.high, carried.low⟩
  next family => exact ⟨nofun, fun carried => absurd ((family_iff _ _).2 carried.family) family⟩

end Switchyard.IntendedDestination
