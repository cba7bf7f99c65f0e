import Yagi.Lib.Text

/-!
# The system calls of eBPF (`ActionAddeBPFSyscall`)

The helpers of the kernel, by number, with their prototypes as the source lists them.
-/

open Text

namespace Yagi

/-- The types of the table, as the macros of the source name them. -/
inductive SyscallType where
  | INT
  | PTR
  | STR
  | U16
  | U32
  | U64
  | S32
  | S64
  | VOID
deriving DecidableEq, Repr

structure Syscall where
  name : Str
  syscall_number : UInt32
  return_type : SyscallType
  params : List (Str × SyscallType)
  dotdotdot : Bool
deriving DecidableEq

def ActionAddeBPFSyscall.syscalls : List Syscall :=
  [⟨ascii "bpf_unspec", 0x0, .VOID, [], false⟩,
    ⟨ascii "bpf_map_lookup_elem", 0x1, .PTR, [(ascii "map", .PTR), (ascii "key", .PTR)], false⟩,
    ⟨ascii "bpf_map_update_elem", 0x3, .INT, [(ascii "map", .PTR), (ascii "key", .PTR), (ascii "value", .PTR),
      (ascii "flags", .U64)], false⟩,
    ⟨ascii "bpf_probe_read", 0x4, .INT, [(ascii "dst", .PTR), (ascii "size", .U32), (ascii "src", .PTR)], false⟩,
    ⟨ascii "bpf_ktime_get_ns", 0x5, .U64, [], false⟩,
    ⟨ascii "bpf_trace_printk", 0x6, .INT, [(ascii "fmt", .PTR), (ascii "fmt_size", .U32)], true⟩,
    ⟨ascii "bpf_get_prandom_u32", 0x7, .U32, [], false⟩,
    ⟨ascii "bpf_get_smp_processor_id", 0x8, .U32, [], false⟩,
    ⟨ascii "bpf_skb_store_bytes", 0x9, .INT, [(ascii "skb", .PTR), (ascii "offset", .U32), (ascii "from", .PTR),
      (ascii "len", .U32), (ascii "flags", .U64)], false⟩,
    ⟨ascii "bpf_l3_csum_replace", 0xa, .INT, [(ascii "skb", .PTR), (ascii "offset", .U32), (ascii "from", .U64),
      (ascii "to", .U64), (ascii "size", .U64)], false⟩,
    ⟨ascii "bpf_l4_csum_replace", 0xb, .INT, [(ascii "skb", .PTR), (ascii "offset", .U32), (ascii "from", .U64),
      (ascii "to", .U64), (ascii "flags", .U64)], false⟩,
    ⟨ascii "bpf_tail_call", 0xc, .INT, [(ascii "ctx", .PTR), (ascii "prog_array_map", .PTR),
      (ascii "index", .U32)], false⟩,
    ⟨ascii "bpf_clone_redirect", 0xd, .INT, [(ascii "skb", .PTR), (ascii "ifindex", .U32),
      (ascii "flags", .U64)], false⟩,
    ⟨ascii "bpf_get_current_pid_tgid", 0xe, .U64, [], false⟩,
    ⟨ascii "bpf_get_current_uid_gid", 0xf, .U64, [], false⟩,
    ⟨ascii "bpf_get_current_comm", 0x10, .INT, [(ascii "buf", .STR), (ascii "size_of_buf", .U32)], false⟩,
    ⟨ascii "bpf_get_cgroup_classid", 0x11, .U32, [(ascii "skb", .PTR)], false⟩,
    ⟨ascii "bpf_skb_vlan_push", 0x12, .INT, [(ascii "skb", .PTR), (ascii "vlan_proto", .U16),
      (ascii "vlan_tci", .U16)], false⟩,
    ⟨ascii "bpf_skb_vlan_pop", 0x13, .INT, [(ascii "skb", .STR)], false⟩,
    ⟨ascii "bpf_skb_get_tunnel_key", 0x14, .INT, [(ascii "skb", .PTR), (ascii "key", .PTR), (ascii "size", .U32),
      (ascii "flags", .U64)], false⟩,
    ⟨ascii "bpf_skb_set_tunnel_key", 0x15, .INT, [(ascii "skb", .PTR), (ascii "key", .PTR), (ascii "size", .U32),
      (ascii "flags", .U64)], false⟩,
    ⟨ascii "bpf_perf_event_read", 0x16, .U64, [(ascii "map", .PTR), (ascii "flags", .U64)], false⟩,
    ⟨ascii "bpf_redirect", 0x17, .INT, [(ascii "ifindex", .U32), (ascii "flags", .U64)], false⟩,
    ⟨ascii "bpf_get_route_realm", 0x18, .INT, [(ascii "skb", .PTR)], false⟩,
    ⟨ascii "bpf_perf_event_output", 0x19, .INT, [(ascii "ctx", .PTR), (ascii "map", .PTR), (ascii "flags", .U64),
      (ascii "data", .PTR), (ascii "size", .U64)], false⟩,
    ⟨ascii "bpf_perf_event_output", 0x1a, .INT, [(ascii "ctx", .PTR), (ascii "map", .PTR), (ascii "flags", .U64),
      (ascii "data", .PTR), (ascii "size", .U64)], false⟩,
    ⟨ascii "bpf_get_stackid", 0x1b, .INT, [(ascii "ctx", .PTR), (ascii "map", .PTR), (ascii "flags", .U64)], false⟩,
    ⟨ascii "bpf_csum_diff", 0x1c, .S64, [(ascii "from", .PTR), (ascii "from_size", .U32), (ascii "to", .PTR),
      (ascii "to_size", .U32), (ascii "seed", .U32)], false⟩,
    ⟨ascii "bpf_skb_get_tunnel_opt", 0x1d, .INT, [(ascii "skb", .PTR), (ascii "opt", .PTR),
      (ascii "size", .U32)], false⟩,
    ⟨ascii "bpf_skb_set_tunnel_opt", 0x1e, .INT, [(ascii "skb", .PTR), (ascii "opt", .PTR),
      (ascii "size", .U32)], false⟩,
    ⟨ascii "bpf_skb_change_proto", 0x1f, .INT, [(ascii "skb", .PTR), (ascii "proto", .U16),
      (ascii "flags", .U64)], false⟩,
    ⟨ascii "bpf_skb_change_type", 0x20, .INT, [(ascii "skb", .PTR), (ascii "type", .U32)], false⟩,
    ⟨ascii "bpf_skb_under_cgroup", 0x21, .INT, [(ascii "skb", .PTR), (ascii "map", .PTR),
      (ascii "index", .U32)], false⟩,
    ⟨ascii "bpf_get_hash_recalc", 0x22, .U32, [(ascii "skb", .PTR)], false⟩,
    ⟨ascii "bpf_get_current_task", 0x23, .U64, [], false⟩,
    ⟨ascii "bpf_probe_write_user", 0x24, .INT, [(ascii "dst", .PTR), (ascii "src", .PTR),
      (ascii "len", .U32)], false⟩,
    ⟨ascii "bpf_current_task_under_cgroup", 0x25, .INT, [(ascii "map", .PTR), (ascii "index", .U32)], false⟩,
    ⟨ascii "bpf_skb_change_tail", 0x26, .INT, [(ascii "skb", .PTR), (ascii "len", .U32),
      (ascii "flags", .U64)], false⟩,
    ⟨ascii "bpf_skb_pull_data", 0x27, .INT, [(ascii "skb", .PTR), (ascii "len", .U32)], false⟩,
    ⟨ascii "bpf_csum_update", 0x28, .S64, [(ascii "skb", .PTR), (ascii "csum", .U32)], false⟩,
    ⟨ascii "bpf_set_hash_invalid", 0x29, .VOID, [(ascii "skb", .PTR)], false⟩,
    ⟨ascii "bpf_get_numa_node_id", 0x2a, .INT, [], false⟩,
    ⟨ascii "bpf_skb_change_head", 0x2b, .INT, [(ascii "skb", .PTR), (ascii "len", .U32),
      (ascii "flags", .U64)], false⟩,
    ⟨ascii "bpf_xdp_adjust_head", 0x2c, .INT, [(ascii "xdp_md", .PTR), (ascii "delta", .INT)], false⟩,
    ⟨ascii "bpf_probe_read_str", 0x2c, .INT, [(ascii "dst", .PTR), (ascii "size", .U32),
      (ascii "unsafe_ptr", .PTR)], false⟩,
    ⟨ascii "bpf_get_socket_cookie", 0x2d, .U64, [(ascii "skb", .PTR)], false⟩,
    ⟨ascii "bpf_get_socket_cookie", 0x2e, .U64, [(ascii "ctx", .PTR)], false⟩,
    ⟨ascii "bpf_get_socket_cookie", 0x2f, .U64, [(ascii "ctx", .PTR)], false⟩,
    ⟨ascii "bpf_get_socket_uid", 0x2f, .U32, [(ascii "skb", .PTR)], false⟩,
    ⟨ascii "bpf_set_hash", 0x30, .U32, [(ascii "skb", .PTR), (ascii "hash", .U32)], false⟩,
    ⟨ascii "bpf_setsockopt", 0x31, .INT, [(ascii "bpf_socket", .PTR), (ascii "level", .INT),
      (ascii "optname", .INT), (ascii "optval", .PTR), (ascii "optlen", .INT)], false⟩,
    ⟨ascii "bpf_skb_adjust_room", 0x32, .INT, [(ascii "skb", .PTR), (ascii "len_diff", .S32),
      (ascii "mode", .U32), (ascii "flags", .U64)], false⟩,
    ⟨ascii "bpf_redirect_map", 0x33, .INT, [(ascii "map", .PTR), (ascii "key", .U32),
      (ascii "flags", .U64)], false⟩,
    ⟨ascii "bpf_sk_redirect_map", 0x34, .INT, [(ascii "skb", .PTR), (ascii "map", .PTR), (ascii "key", .U32),
      (ascii "flags", .U64)], false⟩,
    ⟨ascii "bpf_sock_map_update", 0x35, .INT, [(ascii "skops", .PTR), (ascii "map", .PTR), (ascii "key", .PTR),
      (ascii "flags", .U64)], false⟩,
    ⟨ascii "bpf_xdp_adjust_meta", 0x36, .INT, [(ascii "xdp_md", .PTR), (ascii "delta", .INT)], false⟩,
    ⟨ascii "bpf_perf_event_read_value", 0x37, .INT, [(ascii "map", .PTR), (ascii "flags", .U64),
      (ascii "buf", .PTR), (ascii "buf_size", .U32)], false⟩,
    ⟨ascii "bpf_perf_prog_read_value", 0x38, .INT, [(ascii "ctx", .PTR), (ascii "buf", .PTR),
      (ascii "buf_size", .U32)], false⟩,
    ⟨ascii "bpf_getsockopt", 0x39, .INT, [(ascii "bpf_socket", .PTR), (ascii "level", .INT),
      (ascii "optname", .INT), (ascii "optval", .PTR), (ascii "optlen", .INT)], false⟩,
    ⟨ascii "bpf_override_return", 0x3a, .INT, [(ascii "regs", .PTR), (ascii "rc", .U64)], false⟩,
    ⟨ascii "bpf_sock_ops_cb_flags_set", 0x3b, .INT, [(ascii "bpf_sock", .PTR), (ascii "argval", .INT)], false⟩,
    ⟨ascii "bpf_msg_redirect_map", 0x3c, .INT, [(ascii "msg", .PTR), (ascii "map", .PTR), (ascii "key", .U32),
      (ascii "flags", .U64)], false⟩,
    ⟨ascii "bpf_msg_apply_bytes", 0x3d, .INT, [(ascii "msg", .PTR), (ascii "bytes", .U32)], false⟩,
    ⟨ascii "bpf_msg_cork_bytes", 0x3e, .INT, [(ascii "msg", .PTR), (ascii "bytes", .U32)], false⟩,
    ⟨ascii "bpf_msg_pull_data", 0x3f, .INT, [(ascii "msg", .PTR), (ascii "start", .U32), (ascii "end", .U32),
      (ascii "flags", .U64)], false⟩,
    ⟨ascii "bpf_bind", 0x40, .INT, [(ascii "ctx", .PTR), (ascii "addr", .U32), (ascii "addr_len", .INT)], false⟩,
    ⟨ascii "bpf_xdp_adjust_tail", 0x41, .INT, [(ascii "xdp_md", .PTR), (ascii "delta", .INT)], false⟩,
    ⟨ascii "bpf_skb_get_xfrm_state", 0x42, .INT, [(ascii "skb", .PTR), (ascii "index", .INT),
      (ascii "xfrm_state", .INT), (ascii "size", .U32), (ascii "flags", .U64)], false⟩,
    ⟨ascii "bpf_get_stack", 0x43, .INT, [(ascii "ctx", .PTR), (ascii "buf", .PTR), (ascii "size", .U32),
      (ascii "flags", .U64)], false⟩,
    ⟨ascii "bpf_skb_load_bytes_relative", 0x44, .INT, [(ascii "skb", .PTR), (ascii "offset", .U32),
      (ascii "to", .PTR), (ascii "len", .U32), (ascii "start_header", .U32)], false⟩,
    ⟨ascii "bpf_fib_lookup", 0x45, .INT, [(ascii "ctx", .PTR), (ascii "params", .PTR), (ascii "plen", .INT),
      (ascii "flags", .U32)], false⟩,
    ⟨ascii "bpf_sock_hash_update", 0x46, .INT, [(ascii "skops", .PTR), (ascii "map", .PTR), (ascii "key", .PTR),
      (ascii "flags", .U64)], false⟩,
    ⟨ascii "bpf_msg_redirect_hash", 0x47, .INT, [(ascii "msg", .PTR), (ascii "map", .PTR), (ascii "key", .PTR),
      (ascii "flags", .U64)], false⟩,
    ⟨ascii "bpf_sk_redirect_hash", 0x48, .INT, [(ascii "skb", .PTR), (ascii "map", .PTR), (ascii "key", .PTR),
      (ascii "flags", .U64)], false⟩,
    ⟨ascii "bpf_lwt_push_encap", 0x49, .INT, [(ascii "skb", .PTR), (ascii "type", .U32), (ascii "hdr", .PTR),
      (ascii "len", .U32)], false⟩,
    ⟨ascii "bpf_lwt_seg6_store_bytes", 0x4a, .INT, [(ascii "skb", .PTR), (ascii "offset", .U32),
      (ascii "from", .PTR), (ascii "len", .U32)], false⟩,
    ⟨ascii "bpf_lwt_seg6_adjust_srh", 0x4b, .INT, [(ascii "skb", .PTR), (ascii "offset", .U32),
      (ascii "delta", .S32)], false⟩,
    ⟨ascii "bpf_lwt_seg6_action", 0x4c, .INT, [(ascii "skb", .PTR), (ascii "action", .U32), (ascii "param", .PTR),
      (ascii "param_len", .U32)], false⟩,
    ⟨ascii "bpf_rc_repeat", 0x4d, .INT, [(ascii "ctx", .PTR)], false⟩,
    ⟨ascii "bpf_rc_repeat", 0x4e, .INT, [(ascii "ctx", .PTR), (ascii "protocol", .U32), (ascii "scancode", .U64),
      (ascii "toggle", .U32)], false⟩,
    ⟨ascii "bpf_skb_cgroup_id", 0x4f, .U64, [(ascii "skb", .PTR)], false⟩,
    ⟨ascii "bpf_get_current_cgroup_id", 0x50, .U64, [], false⟩,
    ⟨ascii "bpf_get_local_storage", 0x51, .PTR, [(ascii "map", .PTR), (ascii "flags", .U64)], false⟩,
    ⟨ascii "bpf_sk_select_reuseport", 0x52, .INT, [(ascii "reuse", .PTR), (ascii "map", .PTR),
      (ascii "key", .PTR), (ascii "flags", .U64)], false⟩,
    ⟨ascii "bpf_skb_ancestor_cgroup_id", 0x53, .U64, [(ascii "skb", .PTR), (ascii "ancestor_level", .INT)], false⟩,
    ⟨ascii "bpf_sk_lookup_tcp", 0x54, .PTR, [(ascii "ctx", .PTR), (ascii "tuple", .PTR),
      (ascii "tuple_size", .U32), (ascii "netns", .U64), (ascii "flags", .U64)], false⟩,
    ⟨ascii "bpf_sk_lookup_udp", 0x55, .PTR, [(ascii "ctx", .PTR), (ascii "tuple", .PTR),
      (ascii "tuple_size", .U32), (ascii "netns", .U64), (ascii "flags", .U64)], false⟩,
    ⟨ascii "bpf_sk_release", 0x56, .INT, [(ascii "sock", .PTR)], false⟩,
    ⟨ascii "bpf_map_push_elem", 0x57, .INT, [(ascii "map", .PTR), (ascii "value", .PTR),
      (ascii "flags", .U64)], false⟩,
    ⟨ascii "bpf_map_pop_elem", 0x58, .INT, [(ascii "map", .PTR), (ascii "value", .PTR)], false⟩,
    ⟨ascii "bpf_map_peek_elem", 0x59, .INT, [(ascii "map", .PTR), (ascii "value", .PTR)], false⟩,
    ⟨ascii "bpf_msg_push_data", 0x5a, .INT, [(ascii "msg", .PTR), (ascii "start", .U32), (ascii "len", .U32),
      (ascii "flags", .U64)], false⟩,
    ⟨ascii "bpf_msg_pop_data", 0x5b, .INT, [(ascii "msg", .PTR), (ascii "start", .U32), (ascii "len", .U32),
      (ascii "flags", .U64)], false⟩,
    ⟨ascii "bpf_rc_pointer_rel", 0x5c, .INT, [(ascii "ctx", .PTR), (ascii "rel_x", .S32),
      (ascii "rel_y", .S32)], false⟩,
    ⟨ascii "bpf_spin_lock", 0x5d, .INT, [(ascii "lock", .PTR)], false⟩,
    ⟨ascii "bpf_spin_unlock", 0x5e, .INT, [(ascii "lock", .PTR)], false⟩,
    ⟨ascii "bpf_sk_fullsock", 0x5f, .PTR, [(ascii "sk", .PTR)], false⟩,
    ⟨ascii "bpf_tcp_sock", 0x60, .PTR, [(ascii "sk", .PTR)], false⟩,
    ⟨ascii "bpf_skb_ecn_set_ce", 0x61, .INT, [(ascii "skb", .PTR)], false⟩,
    ⟨ascii "bpf_get_listener_sock", 0x62, .PTR, [(ascii "sk", .PTR)], false⟩,
    ⟨ascii "bpf_skc_lookup_tcp", 0x63, .PTR, [(ascii "ctx", .PTR), (ascii "tuple", .PTR),
      (ascii "tuple_size", .PTR), (ascii "netns", .U64), (ascii "flags", .U64)], false⟩,
    ⟨ascii "bpf_tcp_check_syncookie", 0x64, .INT, [(ascii "sk", .PTR), (ascii "iph", .PTR),
      (ascii "iph_len", .U32), (ascii "th", .PTR), (ascii "th_len", .U32)], false⟩,
    ⟨ascii "bpf_sysctl_get_name", 0x65, .INT, [(ascii "ctx", .PTR), (ascii "buf", .STR), (ascii "buf_len", .U64),
      (ascii "flags", .U64)], false⟩,
    ⟨ascii "bpf_sysctl_get_current_value", 0x66, .INT, [(ascii "ctx", .PTR), (ascii "buf", .STR),
      (ascii "buf_len", .U64)], false⟩,
    ⟨ascii "bpf_sysctl_get_new_value", 0x67, .INT, [(ascii "ctx", .PTR), (ascii "buf", .STR),
      (ascii "buf_len", .U64)], false⟩,
    ⟨ascii "bpf_sysctl_set_new_value", 0x68, .INT, [(ascii "ctx", .PTR), (ascii "buf", .STR),
      (ascii "buf_len", .U64)], false⟩,
    ⟨ascii "bpf_strtol", 0x69, .INT, [(ascii "buf", .STR), (ascii "buf_len", .U64), (ascii "flags", .U64),
      (ascii "res", .PTR)], false⟩,
    ⟨ascii "bpf_strtoul", 0x6a, .INT, [(ascii "buf", .STR), (ascii "buf_len", .U64), (ascii "flags", .U64),
      (ascii "res", .PTR)], false⟩,
    ⟨ascii "bpf_sk_storage_get", 0x6b, .PTR, [(ascii "map", .PTR), (ascii "sk", .PTR), (ascii "value", .PTR),
      (ascii "flags", .U64)], false⟩,
    ⟨ascii "bpf_sk_storage_delete", 0x6c, .INT, [(ascii "map", .PTR), (ascii "sk", .PTR)], false⟩,
    ⟨ascii "bpf_send_signal", 0x6d, .INT, [(ascii "sig", .U32)], false⟩,
    ⟨ascii "bpf_tcp_gen_syncookie", 0x6e, .INT, [(ascii "sk", .PTR), (ascii "iph", .PTR), (ascii "iph_len", .U32),
      (ascii "th", .PTR), (ascii "th_len", .U32)], false⟩,
    ⟨ascii "bpf_skb_output", 0x6f, .INT, [(ascii "ctx", .PTR), (ascii "map", .PTR), (ascii "flags", .U64),
      (ascii "data", .PTR), (ascii "size", .U64)], false⟩,
    ⟨ascii "bpf_probe_read_user", 0x70, .INT, [(ascii "dst", .PTR), (ascii "size", .U32),
      (ascii "unsafe_ptr", .PTR)], false⟩,
    ⟨ascii "bpf_probe_read_kernel", 0x71, .INT, [(ascii "dst", .PTR), (ascii "size", .U32),
      (ascii "unsafe_ptr", .PTR)], false⟩,
    ⟨ascii "bpf_probe_read_user_str", 0x72, .INT, [(ascii "dst", .STR), (ascii "size", .U32),
      (ascii "unsafe_ptr", .PTR)], false⟩,
    ⟨ascii "bpf_probe_read_kernel_str", 0x73, .INT, [(ascii "dst", .STR), (ascii "size", .U32),
      (ascii "unsafe_ptr", .PTR)], false⟩,
    ⟨ascii "bpf_tcp_send_ack", 0x74, .INT, [(ascii "tp", .STR), (ascii "rcv_nxt", .U32)], false⟩,
    ⟨ascii "bpf_send_signal_thread", 0x75, .INT, [(ascii "sig", .U32)], false⟩,
    ⟨ascii "bpf_jiffies64", 0x76, .U64, [], false⟩,
    ⟨ascii "bpf_read_branch_records", 0x77, .INT, [(ascii "ctx", .PTR), (ascii "buf", .PTR), (ascii "size", .U32),
      (ascii "flags", .U64)], false⟩,
    ⟨ascii "bpf_get_ns_current_pid_tgid", 0x78, .INT, [(ascii "dev", .U64), (ascii "ino", .U64),
      (ascii "nsdata", .PTR), (ascii "size", .U32)], false⟩,
    ⟨ascii "bpf_xdp_output", 0x79, .INT, [(ascii "ctx", .PTR), (ascii "map", .PTR), (ascii "flags", .U64),
      (ascii "data", .PTR), (ascii "size", .U64)], false⟩,
    ⟨ascii "bpf_get_netns_cookie", 0x7a, .INT, [(ascii "ctx", .PTR)], false⟩,
    ⟨ascii "bpf_get_current_ancestor_cgroup_id", 0x7b, .U64, [(ascii "ancestor_level", .INT)], false⟩,
    ⟨ascii "bpf_sk_assign", 0x7c, .INT, [(ascii "ctx", .PTR), (ascii "sk", .PTR), (ascii "flags", .U64)], false⟩,
    ⟨ascii "bpf_ktime_get_boot_ns", 0x7d, .U64, [], false⟩,
    ⟨ascii "bpf_seq_printf", 0x7e, .INT, [(ascii "m", .PTR), (ascii "fmt", .STR), (ascii "fmt_size", .U32),
      (ascii "data", .PTR), (ascii "data_len", .U32)], false⟩,
    ⟨ascii "bpf_seq_write", 0x7f, .INT, [(ascii "m", .PTR), (ascii "data", .PTR), (ascii "len", .U32)], false⟩,
    ⟨ascii "bpf_sk_cgroup_id", 0x80, .U64, [(ascii "sk", .PTR)], false⟩,
    ⟨ascii "bpf_sk_ancestor_cgroup_id", 0x81, .U64, [(ascii "sk", .PTR), (ascii "ancestor_level", .INT)], false⟩,
    ⟨ascii "bpf_ringbuf_output", 0x82, .U64, [(ascii "ringbuf", .PTR), (ascii "data", .PTR), (ascii "size", .U64),
      (ascii "flags", .U64)], false⟩,
    ⟨ascii "bpf_ringbuf_reserve", 0x83, .PTR, [(ascii "ringbuf", .PTR), (ascii "data", .PTR),
      (ascii "flags", .U64)], false⟩,
    ⟨ascii "bpf_ringbuf_submit", 0x84, .VOID, [(ascii "ringbuf", .PTR), (ascii "flags", .U64)], false⟩,
    ⟨ascii "bpf_ringbuf_discard", 0x85, .VOID, [(ascii "data", .PTR), (ascii "flags", .U64)], false⟩,
    ⟨ascii "bpf_ringbuf_query", 0x86, .U64, [(ascii "ringbuf", .PTR), (ascii "flags", .U64)], false⟩,
    ⟨ascii "bpf_csum_level", 0x87, .INT, [(ascii "skb", .PTR), (ascii "level", .U64)], false⟩,
    ⟨ascii "bpf_skc_to_tcp6_sock", 0x88, .PTR, [(ascii "sk", .PTR)], false⟩,
    ⟨ascii "bpf_skc_to_tcp_sock", 0x89, .PTR, [(ascii "sk", .PTR)], false⟩,
    ⟨ascii "bpf_skc_to_tcp_timewait_sock", 0x8a, .PTR, [(ascii "sk", .PTR)], false⟩,
    ⟨ascii "bpf_skc_to_tcp_request_sock", 0x8b, .PTR, [(ascii "sk", .PTR)], false⟩,
    ⟨ascii "bpf_skc_to_udp6_sock", 0x8c, .PTR, [(ascii "sk", .PTR)], false⟩,
    ⟨ascii "bpf_get_task_stack", 0x8d, .INT, [(ascii "task", .PTR), (ascii "buf", .PTR), (ascii "size", .U32),
      (ascii "flags", .U64)], false⟩,
    ⟨ascii "bpf_load_hdr_opt", 0x8e, .INT, [(ascii "skops", .PTR), (ascii "searchby_res", .PTR),
      (ascii "len", .U32), (ascii "flags", .U64)], false⟩,
    ⟨ascii "bpf_store_hdr_opt", 0x8f, .INT, [(ascii "skops", .PTR), (ascii "searchby_res", .PTR),
      (ascii "len", .U32), (ascii "flags", .U64)], false⟩,
    ⟨ascii "bpf_reserve_hdr_opt", 0x90, .INT, [(ascii "skops", .PTR), (ascii "len", .U32),
      (ascii "flags", .U64)], false⟩,
    ⟨ascii "bpf_inode_storage_get", 0x91, .PTR, [(ascii "map", .PTR), (ascii "inode", .PTR),
      (ascii "value", .PTR), (ascii "flags", .U64)], false⟩,
    ⟨ascii "bpf_inode_storage_delete", 0x92, .INT, [(ascii "map", .PTR), (ascii "inode", .PTR)], false⟩,
    ⟨ascii "bpf_d_path", 0x93, .INT, [(ascii "path", .PTR), (ascii "buf", .PTR), (ascii "sz", .U32)], false⟩,
    ⟨ascii "bpf_copy_from_user", 0x94, .INT, [(ascii "dst", .PTR), (ascii "size", .U32),
      (ascii "user_ptr", .PTR)], false⟩,
    ⟨ascii "bpf_snprintf_btf", 0x95, .INT, [(ascii "str", .PTR), (ascii "str_size", .U32), (ascii "ptr", .PTR),
      (ascii "ptr_size", .U32), (ascii "flags", .U64)], false⟩,
    ⟨ascii "bpf_seq_printf_btf", 0x96, .INT, [(ascii "m", .PTR), (ascii "ptr", .U32), (ascii "ptr_size", .U32),
      (ascii "flags", .U64)], false⟩,
    ⟨ascii "bpf_skb_cgroup_classid", 0x97, .INT, [(ascii "skb", .PTR)], false⟩,
    ⟨ascii "bpf_redirect_neigh", 0x98, .INT, [(ascii "ifindex", .U32), (ascii "params", .PTR),
      (ascii "plen", .INT), (ascii "flags", .U64)], false⟩,
    ⟨ascii "bpf_per_cpu_ptr", 0x99, .PTR, [(ascii "percpu_ptr", .PTR), (ascii "cpu", .U32)], false⟩,
    ⟨ascii "bpf_this_cpu_ptr", 0x9a, .PTR, [(ascii "percpu_ptr", .PTR)], false⟩,
    ⟨ascii "bpf_redirect_peer", 0x9b, .INT, [(ascii "ifindex", .U32), (ascii "flags", .U64)], false⟩,
    ⟨ascii "bpf_task_storage_get", 0x9c, .PTR, [(ascii "map", .PTR), (ascii "task", .PTR), (ascii "value", .PTR),
      (ascii "flags", .U64)], false⟩,
    ⟨ascii "bpf_task_storage_delete", 0x9d, .INT, [(ascii "map", .PTR), (ascii "task", .PTR)], false⟩,
    ⟨ascii "bpf_get_current_task_btf", 0x9e, .PTR, [], false⟩,
    ⟨ascii "bpf_bprm_opts_set", 0x9f, .INT, [(ascii "bprm", .PTR), (ascii "flags", .U64)], false⟩,
    ⟨ascii "bpf_ktime_get_coarse_ns", 0xa0, .U64, [], false⟩,
    ⟨ascii "bpf_ima_inode_hash", 0xa1, .INT, [(ascii "inode", .PTR), (ascii "dst", .PTR),
      (ascii "size", .U32)], false⟩,
    ⟨ascii "bpf_sock_from_file", 0xa2, .PTR, [(ascii "file", .PTR)], false⟩,
    ⟨ascii "bpf_check_mtu", 0xa3, .INT, [(ascii "ctx", .PTR), (ascii "ifindex", .U32), (ascii "mtu_len", .PTR),
      (ascii "len_diff", .S32), (ascii "flags", .U64)], false⟩,
    ⟨ascii "bpf_for_each_map_elem", 0xa4, .INT, [(ascii "map", .PTR), (ascii "callback_fn", .PTR),
      (ascii "callback_ctx", .PTR), (ascii "flags", .U64)], false⟩,
    ⟨ascii "bpf_snprintf", 0xa5, .INT, [(ascii "str", .STR), (ascii "str_size", .U32), (ascii "fmt", .STR),
      (ascii "data", .PTR), (ascii "data_len", .U32)], false⟩]

end Yagi
