import PjsuaRust.Passthrough.RemoteCaps

open pjsua_rust.video pjsua_rust.video_passthrough transition

namespace pjsua_rust

end pjsua_rust

namespace pjsua_rust.event

structure pjsua_call_media_info where
  type : UInt32
  status : UInt32
  dir : UInt32
deriving DecidableEq, Repr

/-- What is read of a `pjsua_call_info`. `media` is an array of fixed length, of
    which the first `media_cnt` are filled in. -/
structure pjsua_call_info where
  acc_id : Int
  media_status : UInt32
  conf_slot : Int
  media_cnt : UInt32
  media : List pjsua_call_media_info
deriving DecidableEq, Repr

/-- The media an info tells of. -/
def pjsua_call_info.counted (info : pjsua_call_info) : List pjsua_call_media_info :=
  info.media.take (min info.media_cnt.toNat info.media.length)

end pjsua_rust.event
