namespace ProtoBindings.Service

def adapterName : String := "_bind"

def adapterLines : List String :=
  ["def _bind(method: _rpc.RpcMethod, implementation: Callable) -> grpc.RpcMethodHandler:",
    "    \"\"\"Adapt an idiomatic implementation to a grpc.aio handler for ``method``'s shape.\"\"\"",
    "    shape = method.shape",
    "    if shape is _rpc.RpcShape.UNARY:",
    "",
    "        async def unary(request, context):",
    "            _metadata.attach(context.invocation_metadata())",
    "            try:",
    "                response = await implementation(method.request_to_idiom(request))",
    "            except _rpc.StatusError as error:",
    "                await context.abort(error.code, error.details)",
    "            return method.response_to_host(response)",
    "",
    "        return grpc.unary_unary_rpc_method_handler(",
    "            unary,",
    "            request_deserializer=method.request_deserializer,",
    "            response_serializer=method.response_serializer,",
    "        )",
    "    if shape is _rpc.RpcShape.CLIENT_STREAMING:",
    "",
    "        async def client_streaming(request_iterator, context):",
    "            _metadata.attach(context.invocation_metadata())",
    "            try:",
    "                response = await implementation(_rpc.map_async(request_iterator, method.request_to_idiom))",
    "            except _rpc.StatusError as error:",
    "                await context.abort(error.code, error.details)",
    "            return method.response_to_host(response)",
    "",
    "        return grpc.stream_unary_rpc_method_handler(",
    "            client_streaming,",
    "            request_deserializer=method.request_deserializer,",
    "            response_serializer=method.response_serializer,",
    "        )",
    "    if shape is _rpc.RpcShape.SERVER_STREAMING:",
    "",
    "        async def server_streaming(request, context):",
    "            _metadata.attach(context.invocation_metadata())",
    "            try:",
    "                async for response in implementation(method.request_to_idiom(request)):",
    "                    yield method.response_to_host(response)",
    "            except _rpc.StatusError as error:",
    "                await context.abort(error.code, error.details)",
    "",
    "        return grpc.unary_stream_rpc_method_handler(",
    "            server_streaming,",
    "            request_deserializer=method.request_deserializer,",
    "            response_serializer=method.response_serializer,",
    "        )",
    "    if shape is _rpc.RpcShape.BIDI_STREAMING:",
    "",
    "        async def bidi_streaming(request_iterator, context):",
    "            _metadata.attach(context.invocation_metadata())",
    "            try:",
    "                async for response in implementation(_rpc.map_async(request_iterator, method.request_to_idiom)):",
    "                    yield method.response_to_host(response)",
    "            except _rpc.StatusError as error:",
    "                await context.abort(error.code, error.details)",
    "",
    "        return grpc.stream_stream_rpc_method_handler(",
    "            bidi_streaming,",
    "            request_deserializer=method.request_deserializer,",
    "            response_serializer=method.response_serializer,",
    "        )",
    "    raise ValueError(f\"Unsupported method shape \x7bshape!r\x7d for \x7bmethod.full_name\x7d\")"]

end ProtoBindings.Service
